import Bootloader.Proofs.Uefi.Boot

/-!
# Where the boot asks for the memory map

What leads up to the end of the services asks for the memory map in one place: a loader that has no
snapshot acquires one there, and nothing before or after it asks for a map
(`ensures_prepare_acquisition`).
-/

namespace Bootloader.Uefi

open Program

/-- What a call for the memory map was answered. -/
def mapAnswer? : Exchange Firmware → Option (Answer MapOutputs)
  | ⟨.getMemoryMap .., got⟩ => some got
  | _ => none

/-- Nothing asks for the memory map. -/
def Unmapped (es : List (Exchange Firmware)) : Prop := ∀ e ∈ es, mapAnswer? e = none

/-- What leads up to the end of the services, by where it asks for the map: it fails and has not
asked, or it is refused a snapshot and fails, or it has one; and this may come later. -/
inductive Acquisition (efi : Services) :
    List (Exchange Firmware) → Except Status Handover → Prop where
  | unasked {es : List (Exchange Firmware)} {status : Status} (h : Unmapped es) :
    Acquisition efi es (.error status)
  | refused {es after : List (Exchange Firmware)} {outcome : MapOutcome} {map : MemoryMap}
      {status : Status} (h : Runs (efi.acquireMap {}) es (some (outcome, map)))
      (ha : Unmapped after) : Acquisition efi (es ++ after) (.error status)
  | granted {es : List (Exchange Firmware)} {state : Handover}
      (h : Runs (efi.acquireMap {}) es (some (.ok, state.map))) : Acquisition efi es (.ok state)
  | later {before es : List (Exchange Firmware)} {x : Except Status Handover}
      (hb : Unmapped before) (h : Acquisition efi es x) : Acquisition efi (before ++ es) x

theorem mapAnswer?_eq_none {e : Exchange Firmware}
    (h : e.1.IsLoading ∨ e.1.IsPlatform ∨ e.1.IsConsole) : mapAnswer? e = none := by
  obtain ⟨q, r⟩ := e
  cases q <;> first | rfl | exact (h.elim id (Or.elim · id id)).elim

theorem Unmapped.findSome?_append {es es' : List (Exchange Firmware)} (h : Unmapped es) :
    (es ++ es').findSome? mapAnswer? = es'.findSome? mapAnswer? := by
  rw [List.findSome?_append, List.findSome?_eq_none_iff.2 h, Option.none_or]

namespace Services

variable {efi : Services} {A : Exchange Firmware → Prop} {α : Type} {p : Action α}

theorem ensures_unmapped {P : Call → Prop} (hp : p.Only P)
    (hP : ∀ q, P q → q.IsLoading ∨ q.IsPlatform ∨ q.IsConsole) :
    p.Ensures A fun es _ => Unmapped es :=
  hp.ensures.mono fun _ _ h e he => mapAnswer?_eq_none (hP e.1 (h e he))

theorem ensures_unmapped_of_onConsole (hp : OnConsole p) : p.Ensures A fun es _ => Unmapped es :=
  ensures_unmapped hp fun _ h => .inr (.inr h)

theorem ensures_acquisition_bind {f : α → Action (Except Status Handover)}
    (hp : p.Ensures A fun es _ => Unmapped es)
    (hf : ∀ a, (f a).Ensures A (Acquisition efi)) : (p >>= f).Ensures A (Acquisition efi) :=
  hp.bind fun _ a hes => (hf a).mono fun _ _ h => h.later hes

theorem ensures_prepareCore_acquisition (hl : efi.live = true) (core : CoreImage) :
    (efi.prepareCore core).Ensures A (Acquisition efi) := by
  refine ensures_acquisition_bind
    (ensures_unmapped (onPlatform_describePlatform hl _) fun _ => .inr) fun info => ?_
  refine ensures_acquisition_bind
    (ensures_unmapped_of_onConsole (onConsole_printSummary hl info)) fun _ => ?_
  refine (only_acquireMap hl {}).ensures.runs.bind ?_
  rintro es ⟨outcome, map⟩ ⟨hr, -⟩
  dsimp only
  split
  · rename_i hok
    subst hok
    refine ensures_done.2 (.granted ?_)
    rwa [List.append_nil]
  · refine (ensures_unmapped (onLoading_dropPages hl core.pages)
      fun _ => Or.imp_right .inr).bind fun es₁ _ h₁ => ?_
    refine (ensures_unmapped_of_onConsole (onConsole_fail hl _)).bind fun es₂ _ h₂ =>
      ensures_done.2 (.refused hr ?_)
    rw [List.append_nil]
    exact List.forall_mem_append.2 ⟨h₁, h₂⟩

theorem ensures_prepare_acquisition (hl : efi.live = true) :
    efi.prepare.Ensures A (Acquisition efi) := by
  refine ensures_acquisition_bind
    (ensures_unmapped_of_onConsole (onConsole_printBanner hl)) fun _ => ?_
  refine ensures_acquisition_bind (ensures_unmapped_of_onConsole (onConsole_print hl _)) fun _ => ?_
  refine ensures_acquisition_bind
    (ensures_unmapped (onLoading_findCore hl _ _) fun _ => Or.imp_right .inr) ?_
  rintro ⟨status, core⟩
  dsimp only
  split
  · refine (ensures_unmapped_of_onConsole (onConsole_fail hl _)).bind fun es _ hes =>
      ensures_done.2 (.unasked ?_)
    rwa [List.append_nil]
  · exact ensures_prepareCore_acquisition hl core

theorem acquisition_of_prepare (hl : efi.live = true) {es : List (Exchange Firmware)}
    {x : Except Status Handover} (h : Runs efi.prepare es (some x)) : Acquisition efi es x :=
  (ensures_prepare_acquisition hl).of_run h

end Services

end Bootloader.Uefi

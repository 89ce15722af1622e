import Bootloader.Proofs.Uefi.Contract
import Bootloader.Proofs.Uefi.Ledger
import Bootloader.Proofs.Uefi.MapKey

/-!
# Silence after the end of the services

The call that ends the services is the last one that the firmware gets: what follows it goes to the
serial port, to the core or to a halt.  A loader that could not end them gives back what the core
would have got, the core first, and then does no more than say so on the serial port and halt.
`Silent` says both of a run, and `silent_boot` shows it of every run of the boot.
-/

namespace Bootloader.Uefi

open Program

/-- The call goes past the firmware. -/
def Call.IsPastFirmware : Call → Prop
  | debugWrite _ | enterCore .. | halt => True
  | _ => False

/-- The buffer that a call for the memory map was given. -/
def mapBuffer? : Exchange Firmware → Option UInt64
  | ⟨.getMemoryMap _ buffer, _⟩ => some buffer
  | _ => none

/-- The calls that give back the pages of a core and the buffer of a snapshot, if there are any. -/
def releases (run : PageRun) (buffer : UInt64) : List Call :=
  (if run.nonempty then [.freePages run.address run.pages] else []) ++
    (if buffer ≠ 0 then [.freePool buffer] else [])

/-- The run ends with a halt, and gives nothing back to its caller. -/
structure Halted (es : List (Exchange Firmware)) (o : Option Ending) (final : Handover) :
    Prop where
  last : es.getLast? = some ⟨.halt, ()⟩
  value : o = some (.halted final)

/-- The run gives up what was read of the core and the snapshot, and then the services. -/
structure GivenUp (es : List (Exchange Firmware)) (o : Option Ending) (core : CoreImage)
    (buffer : UInt64) (final : Handover) : Prop where
  read : CoreRead es core
  taken : (es.filterMap mapBuffer?).getLast? = some buffer
  calls : ∃ pre, es.map (·.1) = pre ++ releases core.pages buffer ++
    [.debugWrite "LBL: ExitBootServices failed, halting\n", .halt]
  halted : Halted es o final
  gone : final.efi.live = false

/-- Once the services have ended, or the last attempt to end them was refused, nothing is asked of
the firmware but to take its memory back. -/
structure Silent (es : List (Exchange Firmware)) (o : Option Ending) : Prop where
  ended : ∀ pre image key (status : Status) post,
    es = pre ++ ⟨.exitBootServices image key, status⟩ :: post → status.isError = false →
      (∀ e ∈ post, e.1.IsPastFirmware) ∧ ∃ final, Halted es o final
  refused : ∀ status : Status, (es.filterMap exitStatus?).getLast? = some status →
    status.isError = true → ∃ core buffer final, GivenUp es o core buffer final

theorem exitStatus?_eq_none {e : Exchange Firmware} (h : isExit e = false) :
    exitStatus? e = none := by
  obtain ⟨q, r⟩ := e
  cases q <;> first | rfl | cases h

theorem filterMap_exitStatus? {es : List (Exchange Firmware)} (h : ∀ e ∈ es, isExit e = false) :
    es.filterMap exitStatus? = [] :=
  List.filterMap_eq_nil_iff.2 fun e he => exitStatus?_eq_none (h e he)

theorem silent_of_not_isExit {es : List (Exchange Firmware)} {o : Option Ending}
    (h : ∀ e ∈ es, isExit e = false) : Silent es o where
  ended pre image key status post hes _ := by
    have hexit := h ⟨.exitBootServices image key, status⟩ (by simp [hes])
    cases hexit
  refused status hlast _ := by
    rw [filterMap_exitStatus? h] at hlast
    cases hlast

section Attempts

variable {image image' : UInt64} {left : Nat} {map map' : MemoryMap} {info info' : BootInfo}
variable {es : List (Exchange Firmware)} {status : Status}

/-- An attempt that was not refused is the last one, and what the whole comes to. -/
theorem Attempts.eq_of_ended (h : Attempts image left map info es status map' info')
    {pre post : List (Exchange Firmware)} {key : UInt64} {status' : Status}
    (hes : es = pre ++ ⟨.exitBootServices image' key, status'⟩ :: post)
    (hs : status'.isError = false) : post = [] ∧ status' = status := by
  induction h generalizing pre with
  | ended h =>
    cases pre with
    | nil =>
      obtain ⟨he, rfl⟩ := List.cons.inj hes
      cases he
      exact ⟨rfl, rfl⟩
    | cons e pre => simp at hes
  | unread h hg =>
    -- the only attempt was refused
    rcases pre with _ | ⟨e, _ | ⟨e', pre⟩⟩
    · cases hes
      simp [h] at hs
    · cases hes
    · simp at hes
  | again h hg rest ih =>
    rcases pre with _ | ⟨e, _ | ⟨e', pre⟩⟩
    · cases hes
      simp [h] at hs
    · cases hes
    · exact ih (List.cons.inj (List.cons.inj hes).2).2

theorem Attempts.mapBuffer?_eq (h : Attempts image left map info es status map' info') :
    ∀ buffer ∈ es.filterMap mapBuffer?, buffer = map.buffer := by
  induction h with
  | ended h => simp [mapBuffer?, exitCall]
  | unread h hg => simp [mapBuffer?, exitCall, refreshCall]
  | again h hg rest ih => exact List.forall_mem_cons.2 ⟨rfl, ih⟩

/-- Before the services are given up the map was asked for once more. -/
theorem Attempts.getLast?_mapBuffer (h : Attempts image (left + 1) map info es status map' info')
    (hs : status.isError = true) : (es.filterMap mapBuffer?).getLast? = some map.buffer := by
  have hne : es.filterMap mapBuffer? ≠ [] := by
    cases h with
    | ended h => simp [hs] at h
    | unread h hg => simp [mapBuffer?, exitCall, refreshCall]
    | again h hg rest => simp [mapBuffer?, exitCall, refreshCall]
  rw [List.getLast?_eq_some_getLast hne, h.mapBuffer?_eq _ (List.getLast_mem hne)]

end Attempts

section HandedOff

variable {es es₁ es₂ : List (Exchange Firmware)} {status : Status} {state : Handover}

theorem isPastFirmware_entered (info : BootInfo) : ∀ e ∈ entered info, e.1.IsPastFirmware := by
  simp [entered, enteringCall, Call.IsPastFirmware]

theorem filterMap_eq_nil_of_abandoned {β : Type} {f : Exchange Firmware → Option β}
    (h : es.map (·.1) = abandonCalls status state)
    (hf : ∀ e : Exchange Firmware, e.1.IsParting → f e = none) : es.filterMap f = [] :=
  List.filterMap_eq_nil_iff.2 fun e he => hf e (isParting_of_abandoned h e he)

theorem mapBuffer?_of_isParting {e : Exchange Firmware} (h : e.1.IsParting) :
    mapBuffer? e = none := by
  obtain ⟨q, r⟩ := e
  cases q <;> first | rfl | exact h.elim

theorem fullRead?_of_isParting {e : Exchange Firmware} (h : e.1.IsParting) :
    fullRead? e = none := by
  obtain ⟨q, r⟩ := e
  cases q <;> first | rfl | exact h.elim

theorem exists_calls_of_abandoned (h : es.map (·.1) = abandonCalls status state) :
    ∃ pre, es.map (·.1) = pre ++ releases state.core.pages state.map.buffer ++
      [.debugWrite "LBL: ExitBootServices failed, halting\n", .halt] := by
  simp only [h, abandonCalls, releases, ← List.append_assoc]
  exact ⟨_, rfl⟩

theorem getLast?_of_map_eq {pre : List Call}
    (h : es.map (·.1) = pre ++ [Call.halt]) : es.getLast? = some ⟨.halt, ()⟩ := by
  have hlast : es.getLast?.map (·.1) = some Call.halt := by
    rw [← List.getLast?_map, h, List.getLast?_concat]
  obtain ⟨⟨q, r⟩, he, rfl⟩ := Option.map_eq_some_iff.1 hlast
  exact he

end HandedOff

section Split

variable {image : UInt64} {left : Nat} {map map' : MemoryMap} {info info' : BootInfo}
variable {es₁ es₂ es₃ : List (Exchange Firmware)} {status : Status}
variable (h₁ : ∀ e ∈ es₁, isExit e = false) (h₃ : ∀ e ∈ es₃, isExit e = false)
variable (h : Attempts image left map info es₂ status map' info')

include h₁ h₃ h

/-- What follows an attempt that was not refused is what follows all of them. -/
theorem eq_of_ended {image' key : UInt64} {status' : Status} {pre post : List (Exchange Firmware)}
    (hes : es₁ ++ (es₂ ++ es₃) = pre ++ ⟨.exitBootServices image' key, status'⟩ :: post)
    (hs : status'.isError = false) : post = es₃ ∧ status' = status := by
  obtain ⟨pre', rfl, hes₂⟩ := split_right hes fun hx => by cases h₁ _ hx
  obtain ⟨post', rfl, hes₃⟩ := split_left hes₂ fun hx => by cases h₃ _ hx
  obtain ⟨rfl, hstatus⟩ := h.eq_of_ended hes₃ hs
  exact ⟨rfl, hstatus⟩

/-- The last attempt was refused just if the services were not ended. -/
theorem isError_of_getLast? {last : Status}
    (hlast : ((es₁ ++ (es₂ ++ es₃)).filterMap exitStatus?).getLast? = some last) :
    last.isError = status.isError := by
  obtain ⟨last', hlast', heq⟩ := exists_last_exitStatus h
  rw [List.filterMap_append, List.filterMap_append, filterMap_exitStatus? h₁,
    filterMap_exitStatus? h₃, List.nil_append, List.append_nil, hlast', Option.some.injEq] at hlast
  rw [← hlast, heq]

end Split

namespace Services

variable {efi : Services} {es₁ es₂ es₃ : List (Exchange Firmware)} {state : Handover}
variable {map : MemoryMap} {info : BootInfo} {status : Status}

theorem isExit_eq_false_of_prepare (hl : efi.live = true) {o : Option (Except Status Handover)}
    (h : Runs efi.prepare es₁ o) : ∀ e ∈ es₁, isExit e = false :=
  fun e he => isExit_eq_false ((beforeEnd_prepare hl).of_runs h e he)

theorem silent_of_entered (h₁ : ∀ e ∈ es₁, isExit e = false)
    (h : Attempts efi.image exitRetries state.map state.info es₂ status map info)
    (hs : status.isError = false) (final : Handover) :
    Silent (es₁ ++ (es₂ ++ entered info)) (some (.halted final)) where
  ended pre image key status' post hes hs' := by
    obtain ⟨rfl, -⟩ := eq_of_ended h₁ (isExit_entered info) h hes hs'
    refine ⟨isPastFirmware_entered info, final, ?_, rfl⟩
    have hlast : (entered info).getLast? = some ⟨.halt, ()⟩ := rfl
    rw [List.getLast?_append, List.getLast?_append, hlast, Option.some_or, Option.some_or]
  refused last hlast herror := by
    rw [isError_of_getLast? h₁ (isExit_entered info) h hlast, hs] at herror
    cases herror

theorem silent_of_refused (hp : Prepared efi es₁ state) (h₁ : ∀ e ∈ es₁, isExit e = false)
    (h : Attempts efi.image exitRetries state.map state.info es₂ status map info)
    (hs : status.isError = true)
    (hend : es₃.map (·.1) = abandonCalls status ⟨efi, state.core, map, info⟩) :
    Silent (es₁ ++ (es₂ ++ es₃))
      (some (.halted (Handover.released ⟨efi.giveUp, state.core, map, info⟩))) where
  ended pre image key status' post hes hs' := by
    obtain ⟨-, rfl⟩ := eq_of_ended h₁ (isExit_eq_false_of_abandoned hend) h hes hs'
    rw [hs] at hs'
    cases hs'
  refused last hlast herror := by
    obtain ⟨pre, hcalls⟩ := exists_calls_of_abandoned hend
    have hall : (es₁ ++ (es₂ ++ es₃)).map (·.1) = es₁.map (·.1) ++ es₂.map (·.1) ++ pre ++
        releases state.core.pages map.buffer ++
          [.debugWrite "LBL: ExitBootServices failed, halting\n", .halt] := by
      simp only [List.map_append, hcalls, List.append_assoc]
    have hread : (es₂ ++ es₃).filterMap fullRead? = [] := by
      rw [List.filterMap_append, h.filterMap_fullRead?,
        filterMap_eq_nil_of_abandoned hend fun _ => fullRead?_of_isParting, List.nil_append]
    refine ⟨state.core, map.buffer, _, CoreRead.append_right hp.core hread, ?_, ⟨_, hall⟩,
      ⟨getLast?_of_map_eq (hall.trans (List.append_cons ..)), rfl⟩, rfl⟩
    rw [List.filterMap_append, List.filterMap_append,
      filterMap_eq_nil_of_abandoned hend fun _ => mapBuffer?_of_isParting, List.append_nil,
      List.getLast?_append, h.getLast?_mapBuffer hs, Option.some_or, h.buffer_eq]

/-- Every run of the boot is silent after the end of the services. -/
theorem silent_boot {es : List (Exchange Firmware)} {o : Option Ending}
    (h : Runs efi.boot es o) : Silent es o := by
  cases booted_of_runs h with
  | misused hl => exact silent_of_not_isExit (by simp [isExit, Call.isExit])
  | returned hl hr => exact silent_of_not_isExit (isExit_eq_false_of_prepare hl hr)
  | @halted es₁ es₂ state final hl hr hend =>
    have h₁ := isExit_eq_false_of_prepare hl hr
    have hprepared : efi.prepare.Ensures (fun _ => True) _ := ensures_prepare hl
    cases hend with
    | refused hattempts hs hend =>
      exact silent_of_refused (hprepared.of_runs hr (fun _ _ => trivial) state rfl) h₁ hattempts hs
        hend
    | entered hattempts hs => exact silent_of_entered h₁ hattempts hs _

/-- A boot on the small firmware, if it never ends its services. -/
def stubbornBoot : List (Exchange Firmware) :=
  smallServices.boot.exchanges (fun q _ => ((smallFirmware q 0).1, 0)) 0

/-- The small firmware ends its services at the second attempt, or never. -/
theorem silent_smallBoot :
    (∃ o, Silent smallBoot o ∧ smallBoot.filterMap exitStatus? = [.invalidParameter, .success]) ∧
      ∃ o, Silent stubbornBoot o ∧
        stubbornBoot.filterMap exitStatus? = [.invalidParameter, .invalidParameter] := by
  obtain ⟨o, h⟩ := runs_smallBoot
  have hstubborn := runs_exchanges (fun q _ => ((smallFirmware q 0).1, 0)) smallServices.boot 0
  exact ⟨⟨o, silent_boot h, by decide +kernel⟩, _, silent_boot hstubborn, by decide +kernel⟩

end Services

end Bootloader.Uefi

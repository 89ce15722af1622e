import Bootloader.Proofs.Uefi.Calls
import Bootloader.Proofs.Uefi.SizedQuery

/-!
# What a snapshot of the memory map is of

A snapshot holds the buffer and the outputs of one call for the memory map (`MemoryMap.TakenBy`),
provided that a firmware writes the outputs of a call that went well (`WritesMap`).  A snapshot that
was acquired is of the last call there was (`ensures_acquireMap`).
-/

namespace Bootloader.Uefi

open Program

/-- A call for the memory map that went well has written all its outputs. -/
def WritesMap : Exchange Firmware → Prop
  | ⟨.getMemoryMap .., got⟩ => got.status.isError = false →
    got.value.key.isSome = true ∧ got.value.descriptorSize.isSome = true ∧
      got.value.descriptorVersion.isSome = true
  | _ => True

/-- The outputs of the call that a snapshot is of. -/
def MemoryMap.outputs (map : MemoryMap) : MapOutputs :=
  ⟨map.size, some map.key, some map.descriptorSize, some map.descriptorVersion⟩

/-- The snapshot is of this call, which went well. -/
def MemoryMap.TakenBy (map : MemoryMap) (e : Exchange Firmware) : Prop :=
  ∃ status : Status, status.isError = false ∧
    e = ⟨.getMemoryMap map.bufferSize map.buffer, (⟨status, map.outputs⟩ : Answer MapOutputs)⟩

/-- The call asks for the memory map, or handles memory for it. -/
def Call.IsMapping : Call → Prop
  | getMemoryMap .. | allocatePool .. | freePool _ => True
  | _ => False

/-- What was written by a call that went well is what has been seen. -/
theorem MapSeen.outputs_update {seen : MapSeen} {got : Answer MapOutputs} {size buffer : UInt64}
    (hw : WritesMap ⟨.getMemoryMap size buffer, got⟩) (hs : got.status.isError = false) :
    got.value = ⟨got.value.size, some (seen.update got.value).key,
      some (seen.update got.value).descriptorSize,
      some (seen.update got.value).descriptorVersion⟩ := by
  obtain ⟨hk, hd, hv⟩ := hw hs
  obtain ⟨status, ⟨size', key, descriptorSize, descriptorVersion⟩⟩ := got
  obtain ⟨key, rfl⟩ := Option.isSome_iff_exists.1 hk
  obtain ⟨descriptorSize, rfl⟩ := Option.isSome_iff_exists.1 hd
  obtain ⟨descriptorVersion, rfl⟩ := Option.isSome_iff_exists.1 hv
  rfl

/-- One query for the memory map. -/
def MapQueried (size buffer : UInt64) (seen : MapSeen) (es : List (Exchange Firmware))
    (x : Answer UInt64 × MapSeen) : Prop :=
  ∃ got : Answer MapOutputs, es = [⟨.getMemoryMap size buffer, got⟩] ∧
    WritesMap ⟨.getMemoryMap size buffer, got⟩ ∧
    x = (⟨got.status, got.value.size⟩, seen.update got.value)

/-- A buffer that was filled holds the outcome of the last call. -/
def EndsWithMap (es : List (Exchange Firmware)) (x : SizedQuery.Outcome × MapSeen) : Prop :=
  ∀ result, x.1 = .filled result → ∃ es₀, es = es₀ ++
    [⟨.getMemoryMap result.allocated result.buffer,
      (⟨.success, ⟨result.size, some x.2.key, some x.2.descriptorSize,
        some x.2.descriptorVersion⟩⟩ : Answer MapOutputs)⟩]

namespace Services

variable {efi : Services}

theorem ensures_queryMap (size buffer : UInt64) (seen : MapSeen) :
    (queryMap size buffer seen).Ensures WritesMap (MapQueried size buffer seen) :=
  ensures_request.2 fun got hw => ensures_done.2 ⟨got, rfl, hw, rfl⟩

theorem ensures_fetchMap (hl : efi.live = true) (initial : UInt64) (seen : MapSeen) :
    (efi.fetchMap initial seen).Ensures WritesMap EndsWithMap := by
  refine (ensures_via (SizedQuery.ensures_sizedQuery initial)
    (ensures_measured hl ensures_queryMap) seen).mono fun fs x hx => ?_
  obtain ⟨es, hq, hc⟩ := hx
  rintro result hr
  rw [hr] at hq
  obtain ⟨es₀, rfl, -⟩ := hq.last_of_filled
  obtain ⟨fs₁, s₁, fs₂, rfl, -, hlast⟩ := hc.of_append
  cases hlast.of_singleton with
  | query h =>
    obtain ⟨got, rfl, hw, heq⟩ := h
    simp only [Prod.mk.injEq, Answer.mk.injEq] at heq
    obtain ⟨⟨hs, hn⟩, hseen⟩ := heq
    have hout := s₁.outputs_update hw (by rw [← hs]; rfl)
    exact ⟨fs₁, by rw [hseen, hs, hn, ← hout]⟩

theorem only_queryMap (size buffer : UInt64) (seen : MapSeen) :
    (queryMap size buffer seen).Only Call.IsMapping :=
  (only_perform trivial).bind fun _ => trivial

theorem only_fetchMap (hl : efi.live = true) (initial : UInt64) (seen : MapSeen) :
    (efi.fetchMap initial seen).Only Call.IsMapping :=
  (SizedQuery.ensures_sizedQuery initial).only.via
    (fun q s _ => only_measured hl (fun _ _ => trivial) (fun _ => trivial) only_queryMap q s) seen

theorem only_fetchMapOrGuess (hl : efi.live = true) :
    efi.fetchMapOrGuess.Only Call.IsMapping := by
  refine (only_fetchMap hl 0 {}).bind fun ⟨outcome, seen⟩ => ?_
  dsimp only
  split
  · exact only_fetchMap hl _ seen
  · trivial

theorem ensures_fetchMapOrGuess (hl : efi.live = true) :
    efi.fetchMapOrGuess.Ensures WritesMap EndsWithMap := by
  refine (ensures_fetchMap hl 0 {}).bind fun es ⟨outcome, seen⟩ h => ?_
  dsimp only
  by_cases ho : outcome = .queryFailed .invalidParameter
  · rw [if_pos ho]
    refine (ensures_fetchMap hl _ seen).mono fun es' x h' result hr => ?_
    obtain ⟨es₀, rfl⟩ := h' result hr
    exact ⟨es ++ es₀, (List.append_assoc ..).symm⟩
  · rw [if_neg ho]
    refine ensures_done.2 ?_
    rwa [List.append_nil]

theorem only_free (hl : efi.live = true) (buffer : UInt64) :
    (efi.free buffer).Only Call.IsMapping :=
  (only_call hl trivial).bind fun _ => only_done

theorem only_dropBuffer (hl : efi.live = true) (buffer : UInt64) :
    (efi.dropBuffer buffer).Only Call.IsMapping := by
  unfold dropBuffer
  split
  · exact only_free hl buffer
  · trivial

theorem only_acquireMap (hl : efi.live = true) (map : MemoryMap) :
    (efi.acquireMap map).Only Call.IsMapping := by
  refine (only_check hl).bind fun _ => ?_
  split
  · trivial
  refine (only_fetchMapOrGuess hl).bind fun ⟨outcome, seen⟩ => ?_
  cases outcome with
  | filled result =>
    dsimp only
    split
    · exact (only_free hl _).bind fun _ => only_done
    · exact (only_dropBuffer hl _).bind fun _ => only_done
  | _ => trivial

/-- A snapshot acquired by a loader that had none is of the last call there was. -/
theorem ensures_acquireMap (hl : efi.live = true) {map : MemoryMap} (hm : map.buffer = 0) :
    (efi.acquireMap map).Ensures WritesMap fun es x =>
      x.1 = .ok → ∃ es₀ e, es = es₀ ++ [e] ∧ x.2.TakenBy e := by
  rw [acquireMap, check_of_live hl, bind_done]
  cases ht : efi.table.offersMemoryMap with
  | false => exact ensures_done.2 (by simp)
  | true =>
  refine (ensures_fetchMapOrGuess hl).bind fun es ⟨outcome, seen⟩ h => ?_
  cases outcome with
  | filled result =>
    obtain ⟨es₀, rfl⟩ := h result rfl
    dsimp only
    split
    · rw [Services.free, call_eq_of_live hl]
      exact ensures_request.2 fun _ _ => ensures_done.2 (by simp)
    · rw [hm]
      exact ensures_done.2 fun _ => ⟨es₀, _, by simp [MemoryMap.outputs], .success, rfl, rfl⟩
  | _ => exact ensures_done.2 (by simp)

end Services

end Bootloader.Uefi

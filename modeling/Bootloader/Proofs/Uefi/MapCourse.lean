import Bootloader.Proofs.Uefi.GivenBuffers
import Mathlib.Algebra.Group.Nat.Defs

/-!
# How the memory map is asked for

The firmware is asked for its memory map without a buffer, and if it takes that for a mistake then
with one of a guessed size; either is a probe (`MapProbed`).  A probe that was too small is followed
by one fetch (`MapFetched`), with a buffer of the reported size and some more (`Padded`).  `MapSought`
is the whole, with what the calls have written by then.

All three are read off the measured query that the firmware carries out, one request after the other
(`carried_query` and its like).
-/

namespace Bootloader.Uefi

open Program

/-- What the pool grants: a buffer, or zero. -/
def Answer.granted (got : Answer UInt64) : UInt64 := if got.status.isError then 0 else got.value

/-- A buffer of `size` bytes is asked for. -/
abbrev allocateCall (size : UInt64) (got : Answer UInt64) : Exchange Firmware :=
  ⟨.allocatePool loaderData size, got⟩

/-- The memory map is asked for, with a buffer of `size` bytes. -/
abbrev mapCall (size buffer : UInt64) (got : Answer MapOutputs) : Exchange Firmware :=
  ⟨.getMemoryMap size buffer, got⟩

/-- A buffer is given back, if there is one. -/
def GivenBack (buffer : UInt64) (es : List (Exchange Firmware)) : Prop :=
  es.map (·.1) = if buffer ≠ 0 then [.freePool buffer] else []

/-- The bytes of the descriptors a map may grow by. -/
def MapSeen.slackBytes (seen : MapSeen) : ℕ :=
  8 * (if seen.descriptorSize = 0 then 40 else seen.descriptorSize).toNat

/-- The size is that which was reported and the slack, as far as a machine word can hold both. -/
structure Padded (size reported : UInt64) (seen : MapSeen) : Prop where
  toNat_eq : size.toNat = (reported.toNat + seen.slackBytes) % 2 ^ 64
  le_toNat : reported.toNat + seen.slackBytes < 2 ^ 64 →
    reported.toNat + seen.slackBytes ≤ size.toNat

/-- The exchanges of a fetch, how it ends, and what was written by then. -/
inductive MapFetched (size : UInt64) (before : MapSeen) :
    List (Exchange Firmware) → SizedQuery.Outcome → MapSeen → Prop where
  | noMemory {lent : Answer UInt64} (hb : lent.granted = 0) :
    MapFetched size before [allocateCall size lent] .allocationFailed before
  | filled {lent : Answer UInt64} {got : Answer MapOutputs} (hb : lent.granted ≠ 0)
      (hs : got.status = .success) :
    MapFetched size before [allocateCall size lent, mapCall size lent.granted got]
      (.filled ⟨lent.granted, got.value.size, size⟩) (before.update got.value)
  | refused {lent : Answer UInt64} {got : Answer MapOutputs} (hb : lent.granted ≠ 0)
      (hs : got.status ≠ .success) (status : Status) :
    MapFetched size before
      [allocateCall size lent, mapCall size lent.granted got, ⟨.freePool lent.granted, status⟩]
      (if got.status = .bufferTooSmall then .stillTooSmall else .fetchFailed got.status)
      (before.update got.value)

/-- The exchanges of a probe that was answered `got`, and of what follows it, how they end, and what
was written by then. -/
inductive MapProbed (size buffer : UInt64) (before : MapSeen) (got : Answer MapOutputs) :
    List (Exchange Firmware) → SizedQuery.Outcome → MapSeen → Prop where
  | filled (hs : got.status = .success) :
    MapProbed size buffer before got [mapCall size buffer got]
      (.filled ⟨buffer, got.value.size, size⟩) (before.update got.value)
  | failed {es : List (Exchange Firmware)} (hs : got.status ≠ .success)
      (ht : got.status ≠ .bufferTooSmall) (hf : GivenBack buffer es) :
    MapProbed size buffer before got (mapCall size buffer got :: es) (.queryFailed got.status)
      (before.update got.value)
  | tooSmall {es es' : List (Exchange Firmware)} {more : UInt64} {sized : SizedQuery.Outcome}
      {after : MapSeen} (ht : got.status = .bufferTooSmall) (hf : GivenBack buffer es)
      (hp : Padded more got.value.size (before.update got.value))
      (h : MapFetched more (before.update got.value) es' sized after) :
    MapProbed size buffer before got (mapCall size buffer got :: (es ++ es')) sized after

/-- The exchanges of all that is done to have the map, how they end, and what was written by then.
The probe is one without a buffer or, if that was taken for a mistake, another with a buffer of the
guessed size. -/
inductive MapSought : List (Exchange Firmware) → SizedQuery.Outcome → MapSeen → Prop where
  | bare {got : Answer MapOutputs} {es : List (Exchange Firmware)} {sized : SizedQuery.Outcome}
      {seen : MapSeen} (hg : got.status ≠ .invalidParameter)
      (h : MapProbed 0 0 {} got es sized seen) : MapSought es sized seen
  | noMemory {got : Answer MapOutputs} {lent : Answer UInt64}
      (hg : got.status = .invalidParameter) (hb : lent.granted = 0) :
    MapSought [mapCall 0 0 got, allocateCall (640) lent]
      .allocationFailed (MapSeen.update {} got.value)
  | guessed {got got' : Answer MapOutputs} {lent : Answer UInt64} {es : List (Exchange Firmware)}
      {sized : SizedQuery.Outcome} {seen : MapSeen} (hg : got.status = .invalidParameter)
      (hb : lent.granted ≠ 0)
      (h : MapProbed (640) lent.granted
        (MapSeen.update {} got.value) got' es sized seen) :
    MapSought
      (mapCall 0 0 got :: allocateCall (640) lent :: es) sized seen

theorem GivenBack.eq_freePool {buffer : UInt64} {es : List (Exchange Firmware)}
    (h : GivenBack buffer es) : ∀ e ∈ es, e.1 = .freePool buffer := by
  intro e he
  have hmem : e.1 ∈ es.map (·.1) := List.mem_map_of_mem he
  rw [GivenBack] at h
  rw [h] at hmem
  split at hmem
  · exact List.mem_singleton.1 hmem
  · cases hmem

theorem GivenBack.eq_nil {es : List (Exchange Firmware)} (h : GivenBack 0 es) : es = [] :=
  List.map_eq_nil_iff.1 h

theorem padded (reported : UInt64) (seen : MapSeen) : Padded (reported + seen.slack) reported seen := by
  have hsum : (reported + seen.slack).toNat = (reported.toNat + seen.slackBytes) % 2 ^ 64 := by
    rw [UInt64.toNat_add, MapSeen.slack, UInt64.toNat_mul, Nat.add_mod_mod]
    rfl
  exact ⟨hsum, fun hlt => by rw [hsum, Nat.mod_eq_of_lt hlt]⟩

section Probed

variable {fs : List (Exchange Firmware)} {size buffer : UInt64} {sized : SizedQuery.Outcome}
variable {before after : MapSeen}

theorem MapFetched.ne_queryFailed (h : MapFetched size before fs sized after) (status : Status) :
    sized ≠ .queryFailed status := by
  cases h with
  | noMemory hb => simp
  | filled hb hs => simp
  | refused hb hs => split <;> simp

/-- What is done after a probe that failed, and not for want of room. -/
theorem MapProbed.of_failed {got : Answer MapOutputs}
    (h : MapProbed size buffer before got fs sized after) (hs : got.status ≠ .success)
    (ht : got.status ≠ .bufferTooSmall) : ∃ given, fs = mapCall size buffer got :: given ∧
      GivenBack buffer given ∧ after = before.update got.value := by
  cases h with
  | filled hg => exact absurd hg hs
  | failed _ _ hf => exact ⟨_, rfl, hf, rfl⟩
  | tooSmall hg => exact absurd hg ht

/-- A probe fails in just the way that it was answered. -/
theorem MapProbed.queryFailed_iff {got : Answer MapOutputs} {status : Status}
    (h : MapProbed size buffer before got fs sized after) (hs : status ≠ .success)
    (ht : status ≠ .bufferTooSmall) : sized = .queryFailed status ↔ got.status = status := by
  cases h with
  | filled hg => simp [hg, hs.symm]
  | failed hg hg' => simp
  | tooSmall hg hf hp h => simp [hg, ht.symm, h.ne_queryFailed status]

end Probed

namespace Services

section Carried

variable {σ : Type} {s s' : σ} {padding : σ → UInt64}
variable {R : (size buffer : UInt64) → σ → List (Exchange Firmware) → Answer UInt64 × σ → Prop}
variable {es : List (Exchange SizedQuery)} {fs : List (Exchange Firmware)}

theorem carried_allocate {size buffer : UInt64}
    (h : Carried (Measures R padding) ((⟨.allocate size, buffer⟩ : Exchange SizedQuery) :: es) s fs s') :
    ∃ lent rest, fs = allocateCall size lent :: rest ∧ lent.granted = buffer ∧
      Carried (Measures R padding) es s rest s' := by
  cases h with
  | cons hfirst hrest =>
    cases hfirst with
    | allocate _ _ lent => exact ⟨lent, _, rfl, rfl, hrest⟩

theorem carried_free {buffer : UInt64}
    (h : Carried (Measures R padding) ((⟨.free buffer, ()⟩ : Exchange SizedQuery) :: es) s fs s') :
    ∃ (status : Status) (rest : _), fs = ⟨.freePool buffer, status⟩ :: rest ∧
      Carried (Measures R padding) es s rest s' := by
  cases h with
  | cons hfirst hrest =>
    cases hfirst with
    | free _ _ status => exact ⟨status, _, rfl, hrest⟩

theorem carried_padding {more : UInt64}
    (h : Carried (Measures R padding) ((⟨.padding, more⟩ : Exchange SizedQuery) :: es) s fs s') :
    more = padding s ∧ Carried (Measures R padding) es s fs s' := by
  cases h with
  | cons hfirst hrest =>
    cases hfirst
    exact ⟨rfl, hrest⟩

theorem carried_released {buffer : UInt64}
    (h : Carried (Measures R padding) (SizedQuery.released buffer ++ es) s fs s') :
    ∃ given rest, fs = given ++ rest ∧ GivenBack buffer given ∧
      Carried (Measures R padding) es s rest s' := by
  unfold SizedQuery.released at h
  by_cases hb : buffer ≠ 0
  · rw [if_pos hb] at h
    obtain ⟨status, rest, rfl, hrest⟩ := carried_free h
    exact ⟨[⟨.freePool buffer, status⟩], rest, rfl, by simp [GivenBack, hb], hrest⟩
  · rw [if_neg hb] at h
    exact ⟨[], fs, rfl, by simp [GivenBack, hb], h⟩

theorem carried_query {size buffer : UInt64} {got : Answer UInt64} {seen after : MapSeen}
    {padding : MapSeen → UInt64}
    (h : Carried (Measures MapAsked padding) ((⟨.query size buffer, got⟩ : Exchange SizedQuery) :: es) seen fs after) :
    ∃ answer rest, fs = mapCall size buffer answer :: rest ∧
      got = ⟨answer.status, answer.value.size⟩ ∧
        Carried (Measures MapAsked padding) es (seen.update answer.value) rest after := by
  cases h with
  | cons hfirst hrest =>
    cases hfirst with
    | query hasked =>
      obtain ⟨answer, rfl, heq⟩ := hasked
      cases heq
      exact ⟨answer, _, rfl, rfl, hrest⟩

end Carried

section Sought

variable {es : List (Exchange SizedQuery)} {fs : List (Exchange Firmware)} {size buffer : UInt64}
variable {sized : SizedQuery.Outcome} {before after : MapSeen}

theorem mapFetched_of_carried (h : SizedQuery.Fetched size es sized)
    (hc : Carried (Measures MapAsked MapSeen.slack) es before fs after) :
    MapFetched size before fs sized after := by
  cases h with
  | noMemory =>
    obtain ⟨lent, _, rfl, hb, hrest⟩ := carried_allocate hc
    obtain ⟨rfl, rfl⟩ := hrest.of_nil
    exact .noMemory hb
  | filled hb hs =>
    obtain ⟨lent, _, rfl, rfl, hquery⟩ := carried_allocate hc
    obtain ⟨got, _, rfl, rfl, hrest⟩ := carried_query hquery
    obtain ⟨rfl, rfl⟩ := hrest.of_nil
    exact .filled hb hs
  | refused hb hs =>
    obtain ⟨lent, _, rfl, rfl, hquery⟩ := carried_allocate hc
    obtain ⟨got, _, rfl, rfl, hfree⟩ := carried_query hquery
    obtain ⟨status, _, rfl, hrest⟩ := carried_free hfree
    obtain ⟨rfl, rfl⟩ := hrest.of_nil
    exact .refused hb hs status

theorem mapProbed_of_carried (h : SizedQuery.Probed size buffer es sized)
    (hc : Carried (Measures MapAsked MapSeen.slack) es before fs after) :
    ∃ got, MapProbed size buffer before got fs sized after := by
  cases h with
  | filled hs =>
    obtain ⟨got, _, rfl, rfl, hrest⟩ := carried_query hc
    obtain ⟨rfl, rfl⟩ := hrest.of_nil
    exact ⟨got, .filled hs⟩
  | failed hs ht =>
    rw [← List.append_nil (SizedQuery.released buffer)] at hc
    obtain ⟨got, _, rfl, rfl, hreleased⟩ := carried_query hc
    obtain ⟨given, _, rfl, hf, hrest⟩ := carried_released hreleased
    obtain ⟨rfl, rfl⟩ := hrest.of_nil
    rw [List.append_nil]
    exact ⟨got, .failed hs ht hf⟩
  | tooSmall ht h =>
    obtain ⟨got, _, rfl, rfl, hreleased⟩ := carried_query hc
    obtain ⟨given, _, rfl, hf, hpadding⟩ := carried_released hreleased
    obtain ⟨rfl, hfetch⟩ := carried_padding hpadding
    exact ⟨got, .tooSmall ht hf (padded _ _) (mapFetched_of_carried h hfetch)⟩

end Sought

variable {efi : Services} {A : Exchange Firmware → Prop}

theorem ensures_fetchMap_carried (hl : efi.live = true) (initial : UInt64) (seen : MapSeen) :
    (efi.fetchMap initial seen).Ensures A fun fs x => ∃ es, SizedQuery.Queried initial es x.1 ∧
      Carried (Measures MapAsked MapSeen.slack) es seen fs x.2 := by
  have hasked : ∀ size buffer seen,
      (queryMap size buffer seen).Ensures A (MapAsked size buffer seen) := fun _ _ _ =>
    ensures_request.2 fun got _ => ensures_done.2 ⟨got, rfl, rfl⟩
  exact ensures_via (SizedQuery.ensures_sizedQuery initial) (ensures_measured hl hasked) seen

theorem ensures_fetchMap_zero (hl : efi.live = true) (seen : MapSeen) :
    (efi.fetchMap 0 seen).Ensures A fun es x => ∃ got, MapProbed 0 0 seen got es x.1 x.2 := by
  refine (ensures_fetchMap_carried hl 0 seen).mono ?_
  rintro fs ⟨sized, after⟩ ⟨es, hq, hc⟩
  dsimp only at hq hc ⊢
  cases hq with
  | bare _ h => exact mapProbed_of_carried h hc
  | noMemory h0 => exact absurd rfl h0
  | offered h0 => exact absurd rfl h0

theorem ensures_fetchMap_of_ne (hl : efi.live = true) {initial : UInt64} (h0 : initial ≠ 0)
    (seen : MapSeen) : (efi.fetchMap initial seen).Ensures A fun es x =>
      ∃ lent rest, es = allocateCall initial lent :: rest ∧
        ((lent.granted = 0 ∧ rest = [] ∧ x = (.allocationFailed, seen)) ∨
          (lent.granted ≠ 0 ∧
            ∃ got, MapProbed initial lent.granted seen got rest x.1 x.2)) := by
  refine (ensures_fetchMap_carried hl initial seen).mono ?_
  rintro fs ⟨sized, after⟩ ⟨es, hq, hc⟩
  dsimp only at hq hc ⊢
  cases hq with
  | bare hinitial => exact absurd hinitial h0
  | noMemory =>
    obtain ⟨lent, _, rfl, hb, hrest⟩ := carried_allocate hc
    obtain ⟨rfl, rfl⟩ := hrest.of_nil
    exact ⟨lent, [], rfl, .inl ⟨hb, rfl, rfl⟩⟩
  | offered _ hb h =>
    obtain ⟨lent, rest, rfl, rfl, hprobe⟩ := carried_allocate hc
    exact ⟨lent, rest, rfl, .inr ⟨hb, mapProbed_of_carried h hprobe⟩⟩

/-- The map is sought in one of the ways there are. -/
theorem ensures_fetchMapOrGuess_sought (hl : efi.live = true) :
    efi.fetchMapOrGuess.Ensures A fun es x => MapSought es x.1 x.2 := by
  refine (ensures_fetchMap_zero hl {}).bind fun es ⟨sized, seen⟩ hx => ?_
  obtain ⟨got, h⟩ := hx
  have hiff : sized = .queryFailed .invalidParameter ↔ got.status = .invalidParameter :=
    h.queryFailed_iff (by decide) (by decide)
  dsimp only at h ⊢
  split
  · rename_i hrefused
    have hg : got.status = .invalidParameter := hiff.1 hrefused
    obtain ⟨given, rfl, hf, rfl⟩ := h.of_failed (by rw [hg]; decide) (by rw [hg]; decide)
    -- the first probe had no buffer, so nothing is given back before the second
    rw [hf.eq_nil]
    refine (ensures_fetchMap_of_ne hl (by decide) _).mono fun es' x hx => ?_
    obtain ⟨lent, rest, rfl, ⟨hb, rfl, rfl⟩ | ⟨hb, got', h'⟩⟩ := hx
    · exact .noMemory hg hb
    · exact .guessed hg hb h'
  · rename_i hother
    refine ensures_done.2 ?_
    rw [List.append_nil]
    exact .bare (fun hg => hother (hiff.2 hg)) h

end Services

end Bootloader.Uefi

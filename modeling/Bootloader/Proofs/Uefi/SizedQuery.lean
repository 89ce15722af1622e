import Bootloader.Proofs.Carried
import Bootloader.Proofs.Uefi.Calls

/-!
# How a measured query goes

All that a measured query can do: `Fetched` for the second call, `Probed` for the first call and
what follows it, and `Queried` for the whole.  A run is one of these and comes to an outcome
(`ensures_sizedQuery`).  A query that was filled ends with the call that filled it
(`Queried.last_of_filled`).

`Services.Measures` is how the pool of the firmware and a query of the firmware carry it out
(`ensures_measured`).
-/

namespace Bootloader.Uefi

open Program

namespace SizedQuery

/-- The exchanges of a second call, and how it ends. -/
inductive Fetched (size : UInt64) : List (Exchange SizedQuery) → Outcome → Prop where
  | noMemory : Fetched size [⟨.allocate size, (0 : UInt64)⟩] .allocationFailed
  | filled {buffer : UInt64} {got : Answer UInt64} (hb : buffer ≠ 0)
      (hs : got.status = .success) :
    Fetched size [⟨.allocate size, buffer⟩, ⟨.query size buffer, got⟩]
      (.filled ⟨buffer, got.value, size⟩)
  | refused {buffer : UInt64} {got : Answer UInt64} (hb : buffer ≠ 0)
      (hs : got.status ≠ .success) :
    Fetched size [⟨.allocate size, buffer⟩, ⟨.query size buffer, got⟩, ⟨.free buffer, ()⟩]
      (if got.status = .bufferTooSmall then .stillTooSmall else .fetchFailed got.status)

/-- A buffer is given back, if there is one. -/
def released (buffer : UInt64) : List (Exchange SizedQuery) :=
  if buffer ≠ 0 then [⟨.free buffer, ()⟩] else []

/-- The exchanges of a first call and of what follows it, and how they end. -/
inductive Probed (size buffer : UInt64) : List (Exchange SizedQuery) → Outcome → Prop where
  | filled {got : Answer UInt64} (hs : got.status = .success) :
    Probed size buffer [⟨.query size buffer, got⟩] (.filled ⟨buffer, got.value, size⟩)
  | failed {got : Answer UInt64} (hs : got.status ≠ .success)
      (ht : got.status ≠ .bufferTooSmall) :
    Probed size buffer (⟨.query size buffer, got⟩ :: released buffer) (.queryFailed got.status)
  | tooSmall {got : Answer UInt64} {more : UInt64} {es : List (Exchange SizedQuery)}
      {outcome : Outcome} (ht : got.status = .bufferTooSmall)
      (h : Fetched (got.value + more) es outcome) :
    Probed size buffer
      (⟨.query size buffer, got⟩ :: (released buffer ++ ⟨.padding, more⟩ :: es)) outcome

/-- The exchanges of a measured query, and how it ends. -/
inductive Queried (initial : UInt64) : List (Exchange SizedQuery) → Outcome → Prop where
  | bare {es : List (Exchange SizedQuery)} {outcome : Outcome} (h0 : initial = 0)
      (h : Probed 0 0 es outcome) : Queried initial es outcome
  | noMemory (h0 : initial ≠ 0) :
    Queried initial [⟨.allocate initial, (0 : UInt64)⟩] .allocationFailed
  | offered {buffer : UInt64} {es : List (Exchange SizedQuery)} {outcome : Outcome}
      (h0 : initial ≠ 0) (hb : buffer ≠ 0) (h : Probed initial buffer es outcome) :
    Queried initial (⟨.allocate initial, buffer⟩ :: es) outcome

variable {A : Exchange SizedQuery → Prop}

theorem ensures_fetch (size : UInt64) : (fetch size).Ensures A (Fetched size) := by
  refine ensures_request.2 fun buffer _ => ?_
  by_cases hb : buffer = 0
  · rw [if_pos hb, hb]
    exact ensures_done.2 .noMemory
  rw [if_neg hb]
  refine ensures_request.2 fun got _ => ?_
  by_cases hs : got.status = .success
  · rw [if_pos hs]
    exact ensures_done.2 (Fetched.filled hb hs)
  · rw [if_neg hs]
    exact ensures_request.2 fun _ _ => ensures_done.2 (Fetched.refused hb hs)

/-- What is done after a first call that was not filled, with the buffer given back. -/
def afterProbe (got : Answer UInt64) : Program SizedQuery Outcome := do
  if got.status = .bufferTooSmall then
    let more ← ask .padding
    fetch (got.value + more)
  else
    return .queryFailed got.status

theorem ensures_afterProbe {size buffer : UInt64} {got : Answer UInt64}
    (hs : got.status ≠ .success) :
    (afterProbe got).Ensures A fun es outcome =>
      Probed size buffer (⟨.query size buffer, got⟩ :: (released buffer ++ es)) outcome := by
  unfold afterProbe
  by_cases ht : got.status = .bufferTooSmall
  · rw [if_pos ht]
    exact ensures_request.2 fun more _ => (ensures_fetch _).mono fun _ _ => Probed.tooSmall ht
  · rw [if_neg ht]
    refine ensures_done.2 ?_
    rw [List.append_nil]
    exact Probed.failed hs ht

theorem ensures_probe (size buffer : UInt64) :
    (probe size buffer).Ensures A (Probed size buffer) := by
  refine ensures_request.2 fun got _ => ?_
  by_cases hs : got.status = .success
  · rw [if_pos hs]
    exact ensures_done.2 (Probed.filled hs)
  rw [if_neg hs]
  have hrest : (afterProbe got).Ensures A fun es outcome =>
      Probed size buffer (⟨.query size buffer, got⟩ :: (released buffer ++ es)) outcome :=
    ensures_afterProbe hs
  by_cases hb : buffer ≠ 0
  · rw [released, if_pos hb] at hrest
    rw [if_pos hb]
    exact ensures_request.2 fun _ _ => hrest
  · rw [released, if_neg hb] at hrest
    rw [if_neg hb]
    exact hrest

theorem ensures_sizedQuery (initial : UInt64) :
    (sizedQuery initial).Ensures A (Queried initial) := by
  unfold sizedQuery
  by_cases h0 : initial = 0
  · rw [if_pos h0]
    exact (ensures_probe 0 0).mono fun _ _ => Queried.bare h0
  rw [if_neg h0]
  refine ensures_request.2 fun buffer _ => ?_
  by_cases hb : buffer = 0
  · rw [if_pos hb, hb]
    exact ensures_done.2 (Queried.noMemory h0)
  · rw [if_neg hb]
    exact (ensures_probe initial buffer).mono fun _ _ => Queried.offered h0 hb

/-- The exchange is not a call that was answered. -/
def Unanswered : Exchange SizedQuery → Prop
  | ⟨.query .., got⟩ => got.status ≠ .success
  | _ => True

theorem unanswered_released (buffer : UInt64) : ∀ e ∈ released buffer, Unanswered e := by
  unfold released
  split <;> simp [Unanswered]

/-- A first call that was too small was not answered. -/
theorem unanswered_tooSmall {size buffer more : UInt64} {got : Answer UInt64}
    {es : List (Exchange SizedQuery)} (ht : got.status = .bufferTooSmall)
    (h : ∀ e ∈ es, Unanswered e) :
    ∀ e ∈ ⟨.query size buffer, got⟩ :: (released buffer ++ ⟨.padding, more⟩ :: es),
      Unanswered e := by
  refine List.forall_mem_cons.2 ⟨?_, List.forall_mem_append.2 ⟨unanswered_released buffer, ?_⟩⟩
  · rw [Unanswered, ht]
    decide
  · exact List.forall_mem_cons.2 ⟨trivial, h⟩

section Filled

variable {initial size buffer : UInt64} {es : List (Exchange SizedQuery)} {result : Filled}

theorem Fetched.last_of_filled (h : Fetched size es (.filled result)) :
    ∃ es₀, es = es₀ ++
        [⟨.query result.allocated result.buffer, (⟨.success, result.size⟩ : Answer UInt64)⟩] ∧
      ∀ e ∈ es₀, Unanswered e := by
  generalize ho : Outcome.filled result = outcome at h
  cases h with
  | noMemory => cases ho
  | @filled buffer got hb hs =>
    cases ho
    exact ⟨[⟨.allocate size, buffer⟩], by rw [← hs]; rfl, by simp [Unanswered]⟩
  | refused hb hs =>
    split at ho <;> cases ho

theorem Probed.last_of_filled (h : Probed size buffer es (.filled result)) :
    ∃ es₀, es = es₀ ++
        [⟨.query result.allocated result.buffer, (⟨.success, result.size⟩ : Answer UInt64)⟩] ∧
      ∀ e ∈ es₀, Unanswered e := by
  cases h with
  | @filled got hs => exact ⟨[], by rw [← hs]; rfl, by simp⟩
  | @tooSmall got more es _ ht h =>
    obtain ⟨es₀, rfl, hes₀⟩ := h.last_of_filled
    exact ⟨⟨.query size buffer, got⟩ :: (released buffer ++ ⟨.padding, more⟩ :: es₀), by simp,
      unanswered_tooSmall ht hes₀⟩

/-- A buffer that was filled was filled by the last call, and by no other. -/
theorem Queried.last_of_filled (h : Queried initial es (.filled result)) :
    ∃ es₀, es = es₀ ++
        [⟨.query result.allocated result.buffer, (⟨.success, result.size⟩ : Answer UInt64)⟩] ∧
      ∀ e ∈ es₀, Unanswered e := by
  cases h with
  | bare h0 h => exact h.last_of_filled
  | @offered buffer es _ h0 hb h =>
    obtain ⟨es₀, rfl, hes₀⟩ := h.last_of_filled
    exact ⟨⟨.allocate initial, buffer⟩ :: es₀, rfl, List.forall_mem_cons.2 ⟨trivial, hes₀⟩⟩

theorem Fetched.buffer_ne_zero (h : Fetched size es (.filled result)) : result.buffer ≠ 0 := by
  generalize ho : Outcome.filled result = outcome at h
  cases h with
  | noMemory => cases ho
  | filled hb hs =>
    cases ho
    exact hb
  | refused hb hs =>
    split at ho <;> cases ho

/-- A query that begins with a buffer fills one. -/
theorem Queried.buffer_ne_zero (h0 : initial ≠ 0) (h : Queried initial es (.filled result)) :
    result.buffer ≠ 0 := by
  cases h with
  | bare hinitial => exact absurd hinitial h0
  | offered h0 hb h =>
    cases h with
    | filled hs => exact hb
    | tooSmall ht h => exact h.buffer_ne_zero

end Filled

section Unfilled

variable {initial size buffer : UInt64} {es : List (Exchange SizedQuery)} {outcome : Outcome}

theorem Fetched.unanswered (h : Fetched size es outcome)
    (ho : ∀ result, outcome ≠ .filled result) : ∀ e ∈ es, Unanswered e := by
  cases h with
  | noMemory => simp [Unanswered]
  | filled hb hs => exact absurd rfl (ho _)
  | refused hb hs => simpa [Unanswered] using hs

theorem Probed.unanswered (h : Probed size buffer es outcome)
    (ho : ∀ result, outcome ≠ .filled result) : ∀ e ∈ es, Unanswered e := by
  cases h with
  | filled hs => exact absurd rfl (ho _)
  | failed hs ht => exact List.forall_mem_cons.2 ⟨hs, unanswered_released buffer⟩
  | tooSmall ht h => exact unanswered_tooSmall ht (h.unanswered ho)

/-- A query that was not filled was not answered. -/
theorem Queried.unanswered (h : Queried initial es outcome)
    (ho : ∀ result, outcome ≠ .filled result) : ∀ e ∈ es, Unanswered e := by
  cases h with
  | bare h0 h => exact h.unanswered ho
  | noMemory h0 => simp [Unanswered]
  | offered h0 hb h => exact List.forall_mem_cons.2 ⟨trivial, h.unanswered ho⟩

end Unfilled

end SizedQuery

/-- How a request of a measured query is carried out by the firmware; `R` says how the query
itself is. -/
inductive Measures {σ : Type}
    (R : (size buffer : UInt64) → σ → List (Exchange Firmware) → Answer UInt64 × σ → Prop)
    (padding : σ → UInt64) :
    (q : SizedQuery.Request) → σ → List (Exchange Firmware) → q.Reply × σ → Prop where
  | allocate (size : UInt64) (s : σ) (got : Answer UInt64) :
    Measures R padding (.allocate size) s [⟨.allocatePool loaderData size, got⟩]
      (if got.status.isError then 0 else got.value, s)
  | free (buffer : UInt64) (s : σ) (status : Status) :
    Measures R padding (.free buffer) s [⟨.freePool buffer, status⟩] ((), s)
  | query {size buffer : UInt64} {s : σ} {es : List (Exchange Firmware)} {x : Answer UInt64 × σ}
      (h : R size buffer s es x) : Measures R padding (.query size buffer) s es x
  | padding (s : σ) : Measures R padding .padding s [] (padding s, s)

namespace Services

variable {efi : Services}

theorem ensures_measured {σ : Type} (hl : efi.live = true)
    {A : Exchange Firmware → Prop}
    {query : (size buffer : UInt64) → σ → Action (Answer UInt64 × σ)} {padding : σ → UInt64}
    {R : (size buffer : UInt64) → σ → List (Exchange Firmware) → Answer UInt64 × σ → Prop}
    (hR : ∀ size buffer s, (query size buffer s).Ensures A (R size buffer s)) :
    ∀ q s, (efi.measured query padding q s).Ensures A (Measures R padding q s) := by
  intro q s
  cases q with
  | allocate size =>
    simp only [measured, Services.allocate, call_eq_of_live hl]
    exact ensures_request.2 fun got _ => ensures_done.2 (.allocate size s got)
  | free buffer =>
    simp only [measured, Services.free, call_eq_of_live hl]
    exact ensures_request.2 fun status _ => ensures_done.2 (.free buffer s status)
  | query size buffer => exact (hR size buffer s).mono fun _ _ => .query
  | padding => exact ensures_done.2 (.padding s)

theorem only_measured {σ : Type} {P : Call → Prop} (hl : efi.live = true)
    {query : (size buffer : UInt64) → σ → Action (Answer UInt64 × σ)} {padding : σ → UInt64}
    (ha : ∀ kind size, P (.allocatePool kind size)) (hf : ∀ buffer, P (.freePool buffer))
    (hq : ∀ size buffer s, (query size buffer s).Only P) :
    ∀ q s, (efi.measured query padding q s).Only P := by
  intro q s
  cases q with
  | allocate size =>
    have h : (efi.allocate size).Only P := (only_call hl (ha _ _)).bind fun _ => only_done
    exact h.bind fun _ => only_done
  | free buffer =>
    have h : (efi.free buffer).Only P := (only_call hl (hf _)).bind fun _ => only_done
    exact h.bind fun _ => only_done
  | query size buffer => exact hq size buffer s
  | padding => trivial

end Services

end Bootloader.Uefi

import Bootloader.Proofs.Uefi.SizedQuery

/-!
# The contract of a measured query

A measured query makes one call or two, the second because the first was too small, and for the
second it has a fresh buffer (`Paced`).  What it comes to can be read off the calls and the
allocations alone: each outcome has a condition on them that holds just then (`Decided`).  It owns at
most one buffer at a time, which it gives back unless that is the one that was filled (`Owned`).

There are six ways to end (`Exit`), each with its calls, its allocations and what was given back.

All of it holds of every query, every allocator and every padding, for these are no more than what
the requests are replied.
-/

namespace Bootloader.Uefi

open Program

namespace SizedQuery

/-- A call of the query: what it was given, and what it answered. -/
structure QueryCall where
  size : UInt64
  buffer : UInt64
  answer : Answer UInt64

/-- The call of the query that was made, if one was. -/
@[simp] def queryCall? : Exchange SizedQuery → Option QueryCall
  | ⟨.query size buffer, got⟩ => some ⟨size, buffer, got⟩
  | _ => none

/-- The size that was asked for and the buffer that was granted, or zero. -/
@[simp] def allocation? : Exchange SizedQuery → Option (UInt64 × UInt64)
  | ⟨.allocate size, buffer⟩ => some (size, buffer)
  | _ => none

/-- The buffer that was given back. -/
@[simp] def release? : Exchange SizedQuery → Option UInt64
  | ⟨.free buffer, _⟩ => some buffer
  | _ => none

/-- The calls of the query. -/
def calls (es : List (Exchange SizedQuery)) : List QueryCall := es.filterMap queryCall?

/-- The allocations, those that failed included. -/
def allocations (es : List (Exchange SizedQuery)) : List (UInt64 × UInt64) :=
  es.filterMap allocation?

/-- The buffers that were granted. -/
def granted (es : List (Exchange SizedQuery)) : List UInt64 :=
  ((allocations es).map Prod.snd).filter (· ≠ 0)

/-- The buffers that were given back. -/
def freed (es : List (Exchange SizedQuery)) : List UInt64 := es.filterMap release?

/-- A buffer, if it is one. -/
def own (buffer : UInt64) : List UInt64 := if buffer ≠ 0 then [buffer] else []

/-- Between a call and the next one: its buffer is given back, the padding is evaluated, and a
buffer for both is asked for. -/
def between (call : QueryCall) (more buffer : UInt64) : List (Exchange SizedQuery) :=
  released call.buffer ++ [⟨.padding, more⟩, ⟨.allocate (call.answer.value + more), buffer⟩]

/-- There are two calls at most, the first with the size that was asked for, and the second after
one that was too small, with a fresh buffer of the size that was named and the padding. -/
structure Paced (initial : UInt64) (es : List (Exchange SizedQuery)) : Prop where
  few : (calls es).length ≤ 2
  first : ∀ call ∈ (calls es)[0]?, call.size = initial ∧ (call.buffer = 0 ↔ initial = 0)
  again : ∀ call ∈ (calls es)[0]?, ∀ call' ∈ (calls es)[1]?,
    call.answer.status = .bufferTooSmall ∧ call'.buffer ≠ 0 ∧ ∃ pre more post,
      es = pre ++ ⟨.query call.size call.buffer, call.answer⟩ ::
        (between call more call'.buffer ++
          ⟨.query call'.size call'.buffer, call'.answer⟩ :: post) ∧
      call'.size = call.answer.value + more

/-- A call failed, and not for want of room. -/
def QueryCall.Failed (call : QueryCall) : Prop :=
  call.answer.status ≠ .success ∧ call.answer.status ≠ .bufferTooSmall

/-- Each outcome occurs just if the calls and the allocations went in one way. -/
structure Decided (es : List (Exchange SizedQuery)) (outcome : Outcome) : Prop where
  filled_iff : (∃ result, outcome = .filled result) ↔
    ∃ call ∈ (calls es).getLast?, call.answer.status = .success
  queryFailed_iff : (∃ status, outcome = .queryFailed status) ↔ ∃ call ∈ (calls es)[0]?, call.Failed
  stillTooSmall_iff : outcome = .stillTooSmall ↔
    ∃ call ∈ (calls es)[1]?, call.answer.status = .bufferTooSmall
  fetchFailed_iff : (∃ status, outcome = .fetchFailed status) ↔ ∃ call ∈ (calls es)[1]?, call.Failed
  allocationFailed_iff : outcome = .allocationFailed ↔ ∃ x ∈ allocations es, x.2 = 0

/-- The record tells of the last call: of its status in any case, and of its buffer if it was
filled. -/
structure Recorded (before : Record) (es : List (Exchange SizedQuery)) (outcome : Outcome)
    (after : Record) : Prop where
  status : outcome ≠ .allocationFailed →
    ∃ call ∈ (calls es).getLast?, after.status = call.answer.status
  noMemory : outcome = .allocationFailed → after.status = .outOfResources
  filled : ∀ result, outcome = .filled result →
    result = ⟨after.buffer, after.size, after.allocated⟩ ∧
      (after.allocated, after.buffer) = (allocations es).getLast?.getD (0, 0) ∧
        ∃ call ∈ (calls es).getLast?, after.buffer = call.buffer ∧ after.size = call.answer.value
  unfilled : (∀ result, outcome ≠ .filled result) →
    after = { before with status := after.status }

/-- Each buffer that was granted is given back once, but for the one that was filled. -/
structure Owned (es : List (Exchange SizedQuery)) (outcome : Outcome) : Prop where
  filled : ∀ result, outcome = .filled result → granted es = freed es ++ own result.buffer
  unfilled : (∀ result, outcome ≠ .filled result) → granted es = freed es

/-- What a measured query does and comes to, and what it leaves of the record of its caller. -/
structure Contract (initial : UInt64) (before : Record) (es : List (Exchange SizedQuery))
    (outcome : Outcome) (after : Record) : Prop where
  paced : Paced initial es
  decided : Decided es outcome
  recorded : Recorded before es outcome after
  owned : Owned es outcome

/-- The ways to end, each with the calls, the allocations for the second of them, and what was given
back. -/
inductive Exit (initial buffer : UInt64) :
    List QueryCall → List (UInt64 × UInt64) → List UInt64 → Outcome → Prop where
  | filled {got : Answer UInt64} (hs : got.status = .success) :
    Exit initial buffer [⟨initial, buffer, got⟩] [] [] (.filled ⟨buffer, got.value, initial⟩)
  | queryFailed {got : Answer UInt64} (hs : got.status ≠ .success)
      (ht : got.status ≠ .bufferTooSmall) :
    Exit initial buffer [⟨initial, buffer, got⟩] [] (own buffer) (.queryFailed got.status)
  | noMemory {got : Answer UInt64} (size : UInt64) (ht : got.status = .bufferTooSmall) :
    Exit initial buffer [⟨initial, buffer, got⟩] [(size, 0)] (own buffer) .allocationFailed
  | again {got got' : Answer UInt64} {buffer' : UInt64} (size : UInt64)
      (ht : got.status = .bufferTooSmall) (hb' : buffer' ≠ 0) (hs' : got'.status = .success) :
    Exit initial buffer [⟨initial, buffer, got⟩, ⟨size, buffer', got'⟩]
      [(size, buffer')] (own buffer) (.filled ⟨buffer', got'.value, size⟩)
  | stillTooSmall {got got' : Answer UInt64} {buffer' : UInt64} (size : UInt64)
      (ht : got.status = .bufferTooSmall) (hb' : buffer' ≠ 0)
      (ht' : got'.status = .bufferTooSmall) :
    Exit initial buffer [⟨initial, buffer, got⟩, ⟨size, buffer', got'⟩]
      [(size, buffer')] (own buffer ++ [buffer']) .stillTooSmall
  | fetchFailed {got got' : Answer UInt64} {buffer' : UInt64} (size : UInt64)
      (ht : got.status = .bufferTooSmall) (hb' : buffer' ≠ 0) (hs' : got'.status ≠ .success)
      (ht' : got'.status ≠ .bufferTooSmall) :
    Exit initial buffer [⟨initial, buffer, got⟩, ⟨size, buffer', got'⟩]
      [(size, buffer')] (own buffer ++ [buffer']) (.fetchFailed got'.status)

/-- The buffer for the first call is asked for, if there is to be one. -/
def offering (initial buffer : UInt64) : List (Exchange SizedQuery) :=
  if buffer ≠ 0 then [⟨.allocate initial, buffer⟩] else []

/-- A query that has a buffer for its first call, or needs none, goes on with that call. -/
theorem Queried.eq_offering_append {initial : UInt64} {es : List (Exchange SizedQuery)}
    {outcome : Outcome} (h : Queried initial es outcome) :
    (initial ≠ 0 ∧ es = [⟨.allocate initial, (0 : UInt64)⟩] ∧ outcome = .allocationFailed) ∨
      ∃ buffer es', (buffer = 0 ↔ initial = 0) ∧ es = offering initial buffer ++ es' ∧
        Probed initial buffer es' outcome := by
  rcases h with ⟨h0, h⟩ | h0 | ⟨h0, hb, h⟩
  · subst h0
    exact .inr ⟨0, _, Iff.rfl, rfl, h⟩
  · exact .inl ⟨h0, rfl, rfl⟩
  · exact .inr ⟨_, _, iff_of_false hb h0, by rw [offering, if_pos hb]; rfl, h⟩

section Lists

variable {es es' : List (Exchange SizedQuery)} {e : Exchange SizedQuery} {initial buffer : UInt64}

@[simp] theorem calls_nil : calls [] = [] := rfl

@[simp] theorem calls_cons : calls (e :: es) = (queryCall? e).toList ++ calls es := picked_cons

@[simp] theorem calls_append : calls (es ++ es') = calls es ++ calls es' := List.filterMap_append ..

@[simp] theorem allocations_nil : allocations [] = [] := rfl

@[simp] theorem allocations_cons :
    allocations (e :: es) = (allocation? e).toList ++ allocations es := picked_cons

@[simp] theorem allocations_append : allocations (es ++ es') = allocations es ++ allocations es' :=
  List.filterMap_append ..

@[simp] theorem freed_nil : freed [] = [] := rfl

@[simp] theorem freed_cons : freed (e :: es) = (release? e).toList ++ freed es := picked_cons

@[simp] theorem freed_append : freed (es ++ es') = freed es ++ freed es' := List.filterMap_append ..

@[simp] theorem calls_offering : calls (offering initial buffer) = [] := by
  unfold offering
  split <;> rfl

@[simp] theorem calls_released : calls (released buffer) = [] := by
  unfold released
  split <;> rfl

@[simp] theorem allocations_offering :
    allocations (offering initial buffer) = (own buffer).map (initial, ·) := by
  unfold offering own
  split <;> rfl

@[simp] theorem allocations_released : allocations (released buffer) = [] := by
  unfold released
  split <;> rfl

@[simp] theorem freed_offering : freed (offering initial buffer) = [] := by
  unfold offering
  split <;> rfl

@[simp] theorem freed_released : freed (released buffer) = own buffer := by
  unfold released own
  split <;> rfl

theorem ne_zero_of_mem_own : ∀ a ∈ own buffer, a ≠ 0 := by
  intro a ha
  unfold own at ha
  split at ha
  · rename_i hb
    rwa [List.mem_singleton.1 ha]
  · cases ha

@[simp] theorem zero_not_mem_own : (0 : UInt64) ∉ own buffer := fun h => ne_zero_of_mem_own 0 h rfl

theorem own_of_ne (hb : buffer ≠ 0) : own buffer = [buffer] := if_pos hb

theorem granted_of_allocations {asked : List (UInt64 × UInt64)}
    (ha : allocations es = (own buffer).map (initial, ·) ++ asked) :
    granted es = own buffer ++ (asked.map Prod.snd).filter (· ≠ 0) := by
  have hown : ((own buffer).map (initial, ·)).map Prod.snd = own buffer := by
    rw [List.map_map]
    exact List.map_id _
  have hne : (own buffer).filter (· ≠ 0) = own buffer :=
    List.filter_eq_self.2 fun a ha => decide_eq_true (ne_zero_of_mem_own a ha)
  rw [granted, ha, List.map_append, hown, List.filter_append, hne]

end Lists

section Paced

variable {initial : UInt64} {es : List (Exchange SizedQuery)}

theorem Paced.of_one (call : QueryCall) (hc : calls es = [call]) (hsize : call.size = initial)
    (hb : call.buffer = 0 ↔ initial = 0) : Paced initial es :=
  ⟨by simp [hc], by simp [hc, hsize, hb], by simp [hc]⟩

theorem Paced.of_two (call call' : QueryCall) (hc : calls es = [call, call'])
    (hsize : call.size = initial) (hb : call.buffer = 0 ↔ initial = 0)
    (ht : call.answer.status = .bufferTooSmall) (hb' : call'.buffer ≠ 0)
    (hes : ∃ pre more post, es = pre ++ ⟨.query call.size call.buffer, call.answer⟩ ::
        (between call more call'.buffer ++
          ⟨.query call'.size call'.buffer, call'.answer⟩ :: post) ∧
      call'.size = call.answer.value + more) : Paced initial es := by
  refine ⟨by simp [hc], by simp [hc, hsize, hb], ?_⟩
  rw [hc]
  rintro _ ⟨⟩ _ ⟨⟩
  exact ⟨ht, hb', hes⟩

end Paced

section Probed

variable {initial buffer : UInt64} {es : List (Exchange SizedQuery)} {outcome : Outcome}

theorem paced_of_probed (hb : buffer = 0 ↔ initial = 0) (h : Probed initial buffer es outcome) :
    Paced initial (offering initial buffer ++ es) := by
  rcases h with @⟨got, hs⟩ | @⟨got, hs, ht⟩ | @⟨got, more, fetch, _, ht, h⟩
  · exact .of_one ⟨initial, buffer, got⟩ (by simp) rfl hb
  · exact .of_one ⟨initial, buffer, got⟩ (by simp) rfl hb
  · rcases h with _ | @⟨buffer', got', hb', hs'⟩ | @⟨buffer', got', hb', hs'⟩
    · exact .of_one ⟨initial, buffer, got⟩ (by simp) rfl hb
    · exact .of_two ⟨initial, buffer, got⟩ ⟨got.value + more, buffer', got'⟩ (by simp) rfl hb ht hb'
        ⟨offering initial buffer, more, [], by simp [between], rfl⟩
    · exact .of_two ⟨initial, buffer, got⟩ ⟨got.value + more, buffer', got'⟩ (by simp) rfl hb ht hb'
        ⟨offering initial buffer, more, [⟨.free buffer', ()⟩], by simp [between], rfl⟩

theorem exit_of_probed (h : Probed initial buffer es outcome) :
    Exit initial buffer (calls es) (allocations es) (freed es) outcome := by
  rcases h with @⟨got, hs⟩ | @⟨got, hs, ht⟩ | @⟨got, more, fetch, _, ht, h⟩
  · simpa using Exit.filled hs
  · simpa using Exit.queryFailed hs ht
  · rcases h with _ | @⟨buffer', got', hb', hs'⟩ | @⟨buffer', got', hb', hs'⟩
    · simpa using Exit.noMemory _ ht
    · simpa using Exit.again _ ht hb' hs'
    · split
      · rename_i ht'
        simpa using Exit.stillTooSmall _ ht hb' ht'
      · rename_i ht'
        simpa using Exit.fetchFailed _ ht hb' hs' ht'

end Probed

namespace Exit

variable {initial buffer : UInt64} {es : List (Exchange SizedQuery)} {outcome : Outcome}
variable {called : List QueryCall} {asked : List (UInt64 × UInt64)} {given : List UInt64}

theorem decided (h : Exit initial buffer called asked given outcome) (hc : calls es = called)
    (ha : allocations es = (own buffer).map (initial, ·) ++ asked) : Decided es outcome := by
  have hne : Status.success ≠ .bufferTooSmall := by decide
  cases h with
  | filled hs => constructor <;> simp [hc, ha, QueryCall.Failed, hs]
  | queryFailed hs ht => constructor <;> simp [hc, ha, QueryCall.Failed, hs, ht]
  | noMemory size ht => constructor <;> simp [hc, ha, QueryCall.Failed, ht, hne.symm]
  | again size ht hb' hs' => constructor <;> simp [hc, ha, QueryCall.Failed, ht, hb', hs', hne]
  | stillTooSmall size ht hb' ht' =>
    constructor <;> simp [hc, ha, QueryCall.Failed, ht, hb', ht', hne.symm]
  | fetchFailed size ht hb' hs' ht' =>
    constructor <;> simp [hc, ha, QueryCall.Failed, ht, hb', hs', ht']

theorem recorded (before : Record) (hb : buffer = 0 ↔ initial = 0)
    (h : Exit initial buffer called asked given outcome) (hc : calls es = called)
    (ha : allocations es = (own buffer).map (initial, ·) ++ asked) :
    Recorded before es outcome (before.update outcome) := by
  cases h with
  | filled hs =>
    constructor <;> simp [hc, ha, Record.update, hs]
    by_cases h0 : buffer = 0
    · simp [own, h0, hb.1 h0]
    · simp [own, h0]
  | again size ht hb' hs' => constructor <;> simp [hc, ha, Record.update, hs']
  | queryFailed hs ht => constructor <;> simp [hc, Record.update, Outcome.status]
  | noMemory size ht => constructor <;> simp [Record.update, Outcome.status]
  | stillTooSmall size ht hb' ht' => constructor <;> simp [hc, Record.update, Outcome.status, ht']
  | fetchFailed size ht hb' hs' ht' => constructor <;> simp [hc, Record.update, Outcome.status]

theorem owned (h : Exit initial buffer called asked given outcome)
    (ha : allocations es = (own buffer).map (initial, ·) ++ asked) (hf : freed es = given) :
    Owned es outcome := by
  have hgranted := granted_of_allocations ha
  cases h with
  | filled hs => constructor <;> simp [hgranted, hf]
  | queryFailed hs ht => constructor <;> simp [hgranted, hf]
  | noMemory size ht => constructor <;> simp [hgranted, hf]
  | again size ht hb' hs' => constructor <;> simp [hgranted, hf, own_of_ne hb', hb']
  | stillTooSmall size ht hb' ht' => constructor <;> simp [hgranted, hf, hb']
  | fetchFailed size ht hb' hs' ht' => constructor <;> simp [hgranted, hf, hb']

end Exit

theorem contract_of_probed {initial buffer : UInt64} {es : List (Exchange SizedQuery)}
    {outcome : Outcome} (before : Record) (hb : buffer = 0 ↔ initial = 0)
    (h : Probed initial buffer es outcome) :
    Contract initial before (offering initial buffer ++ es) outcome (before.update outcome) := by
  have hexit := exit_of_probed h
  have hcalls : calls (offering initial buffer ++ es) = calls es := by simp
  have hfreed : freed (offering initial buffer ++ es) = freed es := by simp
  have hasked : allocations (offering initial buffer ++ es) =
      (own buffer).map (initial, ·) ++ allocations es := by simp
  exact ⟨paced_of_probed hb h, hexit.decided hcalls hasked,
    hexit.recorded before hb hcalls hasked, hexit.owned hasked hfreed⟩

theorem contract_of_noMemory (initial : UInt64) (before : Record) :
    Contract initial before [⟨.allocate initial, (0 : UInt64)⟩] .allocationFailed
      (before.update .allocationFailed) := by
  have hcalls : calls [⟨.allocate initial, (0 : UInt64)⟩] = [] := rfl
  refine ⟨?_, ?_, ?_, ?_⟩ <;> constructor <;> simp [hcalls, granted, Record.update, Outcome.status]

/-- Every measured query comes to an outcome and keeps its contract, whatever it is that it
measures, and whatever the allocator does. -/
theorem contract_sizedQuery {before : Record} {initial : UInt64} {es : List (Exchange SizedQuery)}
    {o : Option (Outcome × Record)} (h : Runs (sizedQueryInto before initial) es o) :
    ∃ outcome after, o = some (outcome, after) ∧ Contract initial before es outcome after := by
  have hensures : (sizedQueryInto before initial).Ensures (fun _ => True) fun es x =>
      Queried initial es x.1 ∧ x.2 = before.update x.1 := by
    refine (ensures_sizedQuery initial).bind fun es outcome hq => ensures_done.2 ?_
    rw [List.append_nil]
    exact ⟨hq, rfl⟩
  obtain ⟨⟨outcome, after⟩, rfl, hq, hafter⟩ := hensures es o h fun _ _ => trivial
  refine ⟨outcome, after, rfl, ?_⟩
  dsimp only at hq hafter
  subst hafter
  rcases hq.eq_offering_append with ⟨-, rfl, rfl⟩ | ⟨buffer, es', hb, rfl, hp⟩
  · exact contract_of_noMemory initial before
  · exact contract_of_probed before hb hp

/-- Surroundings in which the first buffer is too small and the second is not; the allocator grants
the same place again once it was given back. -/
def growing : (q : Request) → Nat → q.Reply × Nat
  | .allocate _, n => (0x1000, n)
  | .free _, n => ((), n)
  | .query .., n => (if n = 0 then ⟨.bufferTooSmall, 200⟩ else ⟨.success, 190⟩, n + 1)
  | .padding, n => (16, n)

/-- A query that has to be made again there, with the first buffer given back in between. -/
theorem contract_growing : ∃ es after,
    Runs (sizedQueryInto {} 128) es (some (.filled ⟨0x1000, 190, 216⟩, after)) ∧
      Contract 128 {} es (.filled ⟨0x1000, 190, 216⟩) after ∧ (calls es).length = 2 ∧
        granted es = [0x1000, 0x1000] ∧ freed es = [0x1000] := by
  have hr := runs_exchanges growing (sizedQueryInto {} 128) 0
  have ho : ((sizedQueryInto {} 128).run growing 0).1 =
      some (.filled ⟨0x1000, 190, 216⟩, ⟨0x1000, 190, 216, .success⟩) := by decide +kernel
  rw [ho] at hr
  obtain ⟨outcome, after, hsome, hcontract⟩ := contract_sizedQuery hr
  cases hsome
  exact ⟨_, _, hr, hcontract, by decide +kernel, by decide +kernel, by decide +kernel⟩

end SizedQuery

end Bootloader.Uefi

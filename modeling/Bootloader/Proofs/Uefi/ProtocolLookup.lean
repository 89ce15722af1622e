import Bootloader.Proofs.Uefi.FileLoad
import Bootloader.Proofs.Uefi.GivenBuffers

/-!
# Looking a protocol up by its handles

Boot services without a direct search for a protocol list the handles that support it, and the
first of them is asked for its interface.  The list goes into the loader's own room for one handle,
or into a buffer of the size that the firmware names if there are more (`HandlesSought`).

The lookup comes to what the first handle gives, and to nothing just if a call on the way failed;
the buffer is given back before the handle is asked (`HandleLookup`).  Where the firmware keeps a
list of the handles and answers from that, it is what a direct search comes to
(`DirectAgrees`).
-/

namespace Bootloader.Uefi

open Program

/-- A search for handles: the room there was for them, and what it came to. -/
structure HandleQuery where
  size : UInt64
  buffer : HandleBuffer
  answer : Answer HandleSearch

def HandleQuery.exchange (query : HandleQuery) (protocol : Guid) : Exchange Firmware :=
  ⟨.locateHandle byProtocol protocol query.size query.buffer, query.answer⟩

/-- The search failed, and not for want of room. -/
def HandleQuery.Failed (query : HandleQuery) : Prop :=
  query.answer.status.isError = true ∧ query.answer.status ≠ .bufferTooSmall

@[simp] def handleQuery? : Exchange Firmware → Option HandleQuery
  | ⟨.locateHandle _ _ size buffer, got⟩ => some ⟨size, buffer, got⟩
  | _ => none

/-- What an allocation from the pool came to. -/
@[simp] def poolAnswer? : Exchange Firmware → Option (Answer UInt64)
  | ⟨.allocatePool .., got⟩ => some got
  | _ => none

/-- What a handle answered that was asked for its interface. -/
@[simp] def handleAnswer? : Exchange Firmware → Option (Answer UInt64)
  | ⟨.handleProtocol .., got⟩ => some got
  | _ => none

abbrev handleQueries : List (Exchange Firmware) → List HandleQuery := picked handleQuery?

abbrev poolAnswers : List (Exchange Firmware) → List (Answer UInt64) := picked poolAnswer?

abbrev handleAnswers : List (Exchange Firmware) → List (Answer UInt64) := picked handleAnswer?

/-- The first of the handles that the last search has listed: it is in the loader's own room, or
the buffer begins with it. -/
inductive FirstHandle (protocol : Guid) : List (Exchange Firmware) → UInt64 → Prop where
  | single (pre : List (Exchange Firmware)) {post : List (Exchange Firmware)} {size : UInt64}
      {got : Answer HandleSearch} (hs : got.status.isError = false)
      (hpost : handleQueries post = []) :
    FirstHandle protocol (pre ++ ⟨.locateHandle byProtocol protocol size .single, got⟩ :: post)
      got.value.single
  | pool (pre : List (Exchange Firmware)) {post : List (Exchange Firmware)}
      {size buffer handle : UInt64} {got : Answer HandleSearch}
      (hs : got.status.isError = false) (hpost : handleQueries post = []) :
    FirstHandle protocol (pre ++ ⟨.locateHandle byProtocol protocol size (.pool buffer), got⟩ ::
      ⟨.load buffer, handle⟩ :: post) handle

/-- There are two searches at most, the first with room for one handle, and the second after one
that had too little, with a fresh buffer of the size that was named. -/
structure ListsHandles (protocol : Guid) (es : List (Exchange Firmware)) : Prop where
  few : (handleQueries es).length ≤ 2
  first : ∀ query ∈ (handleQueries es)[0]?, query.size = 8 ∧ query.buffer = .single ∧
    [query.exchange protocol] <+: es
  again : ∀ query ∈ (handleQueries es)[0]?, ∀ query' ∈ (handleQueries es)[1]?,
    query.answer.status = .bufferTooSmall ∧ query'.size = query.answer.value.size ∧
      ∃ granted : Answer UInt64, granted.IsObject ∧ query'.buffer = .pool granted.value ∧
        [query.exchange protocol, ⟨.allocatePool loaderData query'.size, granted⟩,
          query'.exchange protocol] <:+: es

/-- A search that was needed failed, or the allocation of the buffer. -/
def Unlisted (es : List (Exchange Firmware)) : Prop :=
  (∃ query ∈ (handleQueries es)[0]?, query.Failed) ∨
    (∃ granted ∈ poolAnswers es, ¬granted.IsObject) ∨
      ∃ query ∈ (handleQueries es)[1]?, query.answer.status.isError = true

/-- The handles that support a protocol, and the interface that each of them gives. -/
structure Registry where
  handles : List UInt64
  interface : UInt64 → UInt64

namespace Registry

/-- The interface of the first handle. -/
def first (registry : Registry) : UInt64 := (registry.handles.head?.map registry.interface).getD 0

/-- What a search for the handles comes to: there are none, there is too little room for them, or
they are listed, the first one first. -/
inductive Lists (registry : Registry) (query : HandleQuery) : Prop where
  | none (hnil : registry.handles = []) (hs : query.answer.status = .notFound)
  | short (hne : registry.handles ≠ [])
      (hroom : query.size.toNat < 8 * registry.handles.length)
      (hs : query.answer.status = .bufferTooSmall)
      (hsize : query.answer.value.size.toNat = 8 * registry.handles.length)
  | listed (hne : registry.handles ≠ [])
      (hroom : 8 * registry.handles.length ≤ query.size.toNat)
      (hs : query.answer.status.isError = false)
      (hfirst : query.buffer = .single → registry.handles.head? = some query.answer.value.single)

/-- What is asked of the protocol is answered from the registry; a direct search finds the
interface of the first handle. -/
def Answers (registry : Registry) (protocol : Guid) : Exchange Firmware → Prop
  | ⟨.locateProtocol p, got⟩ => p = protocol → got.interface = registry.first
  | ⟨.handleProtocol handle p, got⟩ => p = protocol → handle ∈ registry.handles →
    got.interface = registry.interface handle
  | ⟨.locateHandle _ p size buffer, got⟩ => p = protocol → registry.Lists ⟨size, buffer, got⟩
  | _ => True

/-- The firmware answers from the registry, and leaves the first handle at the beginning of a
buffer. -/
structure Serves (registry : Registry) (protocol : Guid) (es : List (Exchange Firmware)) :
    Prop where
  answers : ∀ e ∈ es, registry.Answers protocol e
  left : ∀ size buffer got handle,
    [⟨.locateHandle byProtocol protocol size (.pool buffer), got⟩, ⟨.load buffer, handle⟩] <:+: es →
      got.status.isError = false → registry.handles.head? = some handle

end Registry

/-- A direct search comes to the same: if it finds what the first handle gave, and wherever one
registry serves both and there is memory for the list. -/
structure DirectAgrees (protocol : Guid) (es : List (Exchange Firmware)) (interface : UInt64) :
    Prop where
  found : ∀ (newer : Services) es' o, newer.live = true →
    directSearchRevision ≤ newer.table.servicesRevision →
    Runs (newer.locateProtocol protocol) es' o → ∀ got ∈ handleAnswers es,
    (∀ direct, ⟨.locateProtocol protocol, direct⟩ ∈ es' → direct.interface = got.interface) →
      o = some interface
  served : ∀ (newer : Services) es' o, newer.live = true →
    directSearchRevision ≤ newer.table.servicesRevision →
    Runs (newer.locateProtocol protocol) es' o → ∀ registry : Registry,
    registry.Serves protocol es → registry.Serves protocol es' →
    (∀ granted ∈ poolAnswers es, granted.IsObject) → o = some interface

/-- A lookup by handles and the interface it comes to. -/
structure HandleLookup (protocol : Guid) (es : List (Exchange Firmware)) (interface : UInt64) :
    Prop where
  listed : ListsHandles protocol es
  asked : ∀ pre handle p got post, es = pre ++ ⟨.handleProtocol handle p, got⟩ :: post →
    p = protocol ∧ FirstHandle protocol pre handle ∧ Ledger lending 0 pre 0 ∧ post = []
  interface_eq : interface = ((handleAnswers es).head?.map Answer.interface).getD 0
  zero_iff : interface = 0 ↔ Unlisted es ∨ ∃ got ∈ handleAnswers es, ¬got.IsObject
  freed : Ledger lending 0 es 0
  direct : DirectAgrees protocol es interface

/-- The exchanges that look for the first handle, and what they come to. -/
inductive HandlesSought (protocol : Guid) : List (Exchange Firmware) → Option UInt64 → Prop where
  | notFound {found : Answer HandleSearch} (hs : found.status.isError = true)
      (ht : found.status ≠ .bufferTooSmall) :
    HandlesSought protocol [⟨.locateHandle byProtocol protocol 8 .single, found⟩] none
  | single {found : Answer HandleSearch} (hs : found.status.isError = false) :
    HandlesSought protocol [⟨.locateHandle byProtocol protocol 8 .single, found⟩]
      (some found.value.single)
  | noMemory {found : Answer HandleSearch} {granted : Answer UInt64}
      (ht : found.status = .bufferTooSmall) (hg : ¬granted.IsObject) :
    HandlesSought protocol [⟨.locateHandle byProtocol protocol 8 .single, found⟩,
      ⟨.allocatePool loaderData found.value.size, granted⟩] none
  | notFoundAgain {found again : Answer HandleSearch} {granted : Answer UInt64} {status : Status}
      (ht : found.status = .bufferTooSmall) (hg : granted.IsObject)
      (ha : again.status.isError = true) :
    HandlesSought protocol [⟨.locateHandle byProtocol protocol 8 .single, found⟩,
      ⟨.allocatePool loaderData found.value.size, granted⟩,
      ⟨.locateHandle byProtocol protocol found.value.size (.pool granted.value), again⟩,
      ⟨.freePool granted.value, status⟩] none
  | several {found again : Answer HandleSearch} {granted : Answer UInt64} {status : Status}
      {handle : UInt64} (ht : found.status = .bufferTooSmall) (hg : granted.IsObject)
      (ha : again.status.isError = false) :
    HandlesSought protocol [⟨.locateHandle byProtocol protocol 8 .single, found⟩,
      ⟨.allocatePool loaderData found.value.size, granted⟩,
      ⟨.locateHandle byProtocol protocol found.value.size (.pool granted.value), again⟩,
      ⟨.load granted.value, handle⟩, ⟨.freePool granted.value, status⟩] (some handle)

/-- The exchanges of a lookup by handles, and what they come to. -/
inductive LookedUp (protocol : Guid) : List (Exchange Firmware) → UInt64 → Prop where
  | missing {es : List (Exchange Firmware)} (h : HandlesSought protocol es none) :
    LookedUp protocol es 0
  | asked {es : List (Exchange Firmware)} {handle : UInt64} {got : Answer UInt64}
      (h : HandlesSought protocol es (some handle)) :
    LookedUp protocol (es ++ [⟨.handleProtocol handle protocol, got⟩]) got.interface

theorem Answer.IsObject.interface_eq {got : Answer UInt64} (h : got.IsObject) :
    got.interface = got.value := if_neg (by simp [h.1])

theorem Answer.interface_eq_zero_iff (got : Answer UInt64) :
    got.interface = 0 ↔ ¬got.IsObject := by
  unfold interface IsObject
  cases got.status.isError <;> simp

namespace HandlesSought

variable {protocol : Guid} {es : List (Exchange Firmware)} {found : Option UInt64}

theorem handleAnswers_eq_nil (h : HandlesSought protocol es found) : handleAnswers es = [] := by
  cases h <;> rfl

theorem listsHandles (h : HandlesSought protocol es found) : ListsHandles protocol es := by
  cases h with
  | notFound hs ht => constructor <;> simp [HandleQuery.exchange]
  | single hs => constructor <;> simp [HandleQuery.exchange]
  | noMemory ht hg => constructor <;> simp [HandleQuery.exchange]
  | notFoundAgain ht hg ha =>
    refine ⟨by simp, by simp [HandleQuery.exchange], ?_⟩
    rintro _ ⟨⟩ _ ⟨⟩
    exact ⟨ht, rfl, _, hg, rfl, [], _, rfl⟩
  | several ht hg ha =>
    refine ⟨by simp, by simp [HandleQuery.exchange], ?_⟩
    rintro _ ⟨⟩ _ ⟨⟩
    exact ⟨ht, rfl, _, hg, rfl, [], _, rfl⟩

/-- There is no handle just if a search failed that was needed, or the allocation. -/
theorem unlisted_iff (h : HandlesSought protocol es found) : Unlisted es ↔ found = none := by
  cases h with
  | notFound hs ht => simp [Unlisted, HandleQuery.Failed, hs, ht]
  | single hs => simp [Unlisted, HandleQuery.Failed, hs]
  | noMemory ht hg => simp [Unlisted, hg]
  | notFoundAgain ht hg ha => simp [Unlisted, ha]
  | several ht hg ha => simp [Unlisted, HandleQuery.Failed, ht, hg, ha]

theorem firstHandle {handle : UInt64} (h : HandlesSought protocol es (some handle)) :
    FirstHandle protocol es handle := by
  cases h with
  | single hs => exact .single [] hs rfl
  | @several found again granted status _ ht hg ha =>
    exact .pool [⟨.locateHandle byProtocol protocol 8 .single, found⟩,
      ⟨.allocatePool loaderData found.value.size, granted⟩] ha rfl

end HandlesSought

namespace Registry

variable {registry : Registry} {query : HandleQuery} {protocol : Guid}
variable {es : List (Exchange Firmware)} {found : Option UInt64}

theorem Lists.size_eq (h : registry.Lists query) (ht : query.answer.status = .bufferTooSmall) :
    registry.handles ≠ [] ∧ query.answer.value.size.toNat = 8 * registry.handles.length := by
  cases h with
  | none hnil hs => cases hs.symm.trans ht
  | short hne hroom hs hsize => exact ⟨hne, hsize⟩
  | listed hne hroom hs hfirst => exact absurd hs (by rw [ht]; decide)

theorem Serves.lists (h : registry.Serves protocol es) (hq : query.exchange protocol ∈ es) :
    registry.Lists query := h.answers (query.exchange protocol) hq rfl

/-- A search that is answered from a registry comes to the first handle there. -/
theorem head?_eq (h : HandlesSought protocol es found) (hserves : registry.Serves protocol es)
    (hgranted : ∀ granted ∈ poolAnswers es, granted.IsObject) :
    registry.handles.head? = found := by
  cases h with
  | @notFound got hs ht =>
    have hlists : registry.Lists ⟨8, .single, got⟩ := hserves.lists (.head _)
    cases hlists with
    | none hnil hs' => rw [hnil]; rfl
    | short hne hroom hs' hsize => exact absurd hs' ht
    | listed hne hroom hs' hfirst => exact absurd hs (by simp [hs'])
  | @single got hs =>
    have hlists : registry.Lists ⟨8, .single, got⟩ := hserves.lists (.head _)
    cases hlists with
    | none hnil hs' => exact absurd hs (by rw [hs']; decide)
    | short hne hroom hs' hsize => exact absurd hs (by rw [hs']; decide)
    | listed hne hroom hs' hfirst => exact hfirst rfl
  | noMemory ht hg => exact absurd (hgranted _ (by simp)) hg
  | @notFoundAgain got again granted status ht hg ha =>
    have hlists : registry.Lists ⟨8, .single, got⟩ := hserves.lists (.head _)
    obtain ⟨hne, hsize⟩ := hlists.size_eq ht
    have hagain : registry.Lists ⟨got.value.size, .pool granted.value, again⟩ :=
      hserves.lists (.tail _ (.tail _ (.head _)))
    cases hagain with
    | none hnil hs' => exact absurd hnil hne
    | short hne hroom hs' hsize' => exact absurd hroom (by simp [hsize])
    | listed hne hroom hs' hfirst => exact absurd ha (by simp [hs'])
  | @several got again granted status handle ht hg ha =>
    exact hserves.left got.value.size granted.value again handle
      ⟨[⟨.locateHandle byProtocol protocol 8 .single, got⟩,
        ⟨.allocatePool loaderData got.value.size, granted⟩],
        [⟨.freePool granted.value, status⟩], rfl⟩ ha

end Registry

theorem ListsHandles.append {protocol : Guid} {es es' : List (Exchange Firmware)}
    (h : ListsHandles protocol es) (hes' : handleQueries es' = []) :
    ListsHandles protocol (es ++ es') := by
  have heq : handleQueries (es ++ es') = handleQueries es := by simp [hes']
  have hbegins : es <+: es ++ es' := List.prefix_append es es'
  constructor <;> rw [heq]
  · exact h.few
  · intro query hquery
    obtain ⟨hsize, hbuffer, hfirst⟩ := h.first query hquery
    exact ⟨hsize, hbuffer, hfirst.trans hbegins⟩
  · intro query hquery query' hquery'
    obtain ⟨hs, hsize, granted, hg, hbuffer, hpart⟩ := h.again query hquery query' hquery'
    exact ⟨hs, hsize, granted, hg, hbuffer, hpart.trans hbegins.isInfix⟩

namespace LookedUp

variable {protocol : Guid} {es : List (Exchange Firmware)} {interface : UInt64}

theorem listsHandles (h : LookedUp protocol es interface) : ListsHandles protocol es := by
  cases h with
  | missing h => exact h.listsHandles
  | asked h => exact h.listsHandles.append rfl

theorem interface_eq (h : LookedUp protocol es interface) :
    interface = ((handleAnswers es).head?.map Answer.interface).getD 0 := by
  cases h with
  | missing h => simp [h.handleAnswers_eq_nil]
  | asked h => simp [h.handleAnswers_eq_nil]

theorem eq_of_mem (h : LookedUp protocol es interface) {got : Answer UInt64}
    (hgot : got ∈ handleAnswers es) : interface = got.interface := by
  cases h with
  | missing h => simp [h.handleAnswers_eq_nil] at hgot
  | @asked es handle answer h =>
    obtain rfl : got = answer := by simpa [h.handleAnswers_eq_nil] using hgot
    rfl

/-- Nothing is found just if there was no handle, or it has no interface to give. -/
theorem zero_iff (h : LookedUp protocol es interface) :
    interface = 0 ↔ Unlisted es ∨ ∃ got ∈ handleAnswers es, ¬got.IsObject := by
  cases h with
  | missing h => simp [h.unlisted_iff]
  | @asked es handle got h =>
    have hlisted : ¬Unlisted es := mt h.unlisted_iff.1 (by simp)
    have heq : Unlisted (es ++ [⟨.handleProtocol handle protocol, got⟩]) = Unlisted es := by
      simp [Unlisted]
    simp [heq, hlisted, h.handleAnswers_eq_nil, got.interface_eq_zero_iff]

/-- One handle is asked at most, the one that was found, and nothing comes after that. -/
theorem asked_inv (h : LookedUp protocol es interface) {pre post : List (Exchange Firmware)}
    {handle : UInt64} {p : Guid} {got : Answer UInt64}
    (hes : es = pre ++ ⟨.handleProtocol handle p, got⟩ :: post) :
    p = protocol ∧ HandlesSought protocol pre (some handle) ∧ post = [] := by
  cases h with
  | missing h =>
    have hnil := h.handleAnswers_eq_nil
    simp [hes] at hnil
  | asked h =>
    -- The search asks no handle itself, so the one that is asked comes last.
    rcases List.eq_nil_or_concat post with rfl | ⟨post, last, rfl⟩
    · obtain ⟨rfl, hlast⟩ := List.append_inj' hes rfl
      cases hlast
      exact ⟨rfl, h, rfl⟩
    · rw [List.concat_eq_append, ← List.cons_append, ← List.append_assoc] at hes
      have hnil := h.handleAnswers_eq_nil
      simp [(List.append_inj' hes rfl).1] at hnil

/-- A lookup that is answered from a registry comes to the interface of its first handle. -/
theorem eq_first {registry : Registry} (h : LookedUp protocol es interface)
    (hserves : registry.Serves protocol es)
    (hgranted : ∀ granted ∈ poolAnswers es, granted.IsObject) : interface = registry.first := by
  cases h with
  | missing h =>
    rw [Registry.first, Registry.head?_eq h hserves hgranted]
    rfl
  | @asked es handle got h =>
    have hsought : registry.Serves protocol es :=
      ⟨fun e he => hserves.answers e (by simp [he]), fun size buffer got handle hpart =>
        hserves.left size buffer got handle (hpart.trans (List.prefix_append es _).isInfix)⟩
    have hfirst := Registry.head?_eq h hsought fun granted hmem => hgranted granted (by simp [hmem])
    have hgot : registry.Answers protocol ⟨.handleProtocol handle protocol, got⟩ :=
      hserves.answers _ (by simp)
    rw [hgot rfl (List.mem_of_mem_head? hfirst), Registry.first, hfirst]
    rfl

end LookedUp

namespace Services

variable {efi : Services} {A : Exchange Firmware → Prop}

theorem ensures_grant (hl : efi.live = true) (size : UInt64) :
    (efi.allocate size).Ensures A fun es buffer => ∃ granted : Answer UInt64,
      es = [⟨.allocatePool loaderData size, granted⟩] ∧ buffer = granted.interface := by
  rw [allocate, call_eq_of_live hl]
  exact ensures_request.2 fun granted _ => ensures_done.2 ⟨granted, rfl, rfl⟩

theorem ensures_release (hl : efi.live = true) (buffer : UInt64) :
    (efi.free buffer).Ensures A fun es _ => ∃ status, es = [⟨.freePool buffer, status⟩] := by
  rw [free, call_eq_of_live hl]
  exact ensures_request.2 fun status _ => ensures_done.2 ⟨status, rfl⟩

theorem ensures_handlesSought (hl : efi.live = true) (protocol : Guid) :
    (efi.firstHandle protocol).Ensures A (HandlesSought protocol) := by
  rw [firstHandle, call_eq_of_live hl]
  refine ensures_request.2 fun found _ => ?_
  cases hs : found.status.isError with
  | false => exact ensures_done.2 (.single hs)
  | true =>
    rw [if_neg (by simp)]
    split
    · rename_i ht
      exact ensures_done.2 (.notFound hs ht)
    rename_i ht
    rw [not_not] at ht
    refine (ensures_grant hl _).bind ?_
    rintro _ _ ⟨granted, rfl, rfl⟩
    split
    · rename_i h0
      exact ensures_done.2 (.noMemory ht (granted.interface_eq_zero_iff.1 h0))
    rename_i h0
    have hg : granted.IsObject := not_not.1 (mt granted.interface_eq_zero_iff.2 h0)
    rw [hg.interface_eq, call_eq_of_live hl]
    refine ensures_request.2 fun again _ => ?_
    cases ha : again.status.isError with
    | true =>
      refine (ensures_release hl _).bind ?_
      rintro _ _ ⟨status, rfl⟩
      exact ensures_done.2 (.notFoundAgain ht hg ha)
    | false =>
      refine ensures_request.2 fun handle _ => (ensures_release hl _).bind ?_
      rintro _ _ ⟨status, rfl⟩
      exact ensures_done.2 (.several ht hg ha)

/-- Services without a direct search look the protocol up by its handles. -/
theorem ensures_lookedUp (hl : efi.live = true)
    (hrev : efi.table.servicesRevision < directSearchRevision) (protocol : Guid) :
    (efi.locateProtocol protocol).Ensures A (LookedUp protocol) := by
  rw [locateProtocol, check_of_live hl, bind_done, if_neg (UInt32.not_le.2 hrev)]
  refine (ensures_handlesSought hl protocol).bind fun es found h => ?_
  cases found with
  | none =>
    refine ensures_done.2 ?_
    rw [List.append_nil]
    exact .missing h
  | some handle =>
    dsimp only
    rw [call_eq_of_live hl]
    exact ensures_request.2 fun got _ => ensures_done.2 (.asked h)

/-- Services that have a direct search ask for nothing else. -/
theorem ensures_direct (hl : efi.live = true)
    (hrev : directSearchRevision ≤ efi.table.servicesRevision) (protocol : Guid) :
    (efi.locateProtocol protocol).Ensures A fun es interface => ∃ got : Answer UInt64,
      es = [⟨.locateProtocol protocol, got⟩] ∧ interface = got.interface := by
  rw [locateProtocol, check_of_live hl, bind_done, if_pos hrev, call_eq_of_live hl]
  exact ensures_request.2 fun got _ => ensures_done.2 ⟨got, rfl, rfl⟩

theorem directAgrees {protocol : Guid} {es : List (Exchange Firmware)} {interface : UInt64}
    (h : LookedUp protocol es interface) : DirectAgrees protocol es interface := by
  have hdirect : ∀ (newer : Services) es' o, newer.live = true →
      directSearchRevision ≤ newer.table.servicesRevision →
      Runs (newer.locateProtocol protocol) es' o → ∃ direct : Answer UInt64,
        es' = [⟨.locateProtocol protocol, direct⟩] ∧ o = some direct.interface := by
    intro newer es' o hl hrev hr
    obtain ⟨_, rfl, direct, hes', rfl⟩ := (ensures_direct hl hrev protocol).exists_of_run hr
    exact ⟨direct, hes', rfl⟩
  constructor
  · intro newer es' o hl hrev hr got hgot hsame
    obtain ⟨direct, rfl, rfl⟩ := hdirect newer es' o hl hrev hr
    rw [hsame direct (by simp), h.eq_of_mem hgot]
  · intro newer es' o hl hrev hr registry hserves hserves' hgranted
    obtain ⟨direct, rfl, rfl⟩ := hdirect newer es' o hl hrev hr
    have hfound : registry.Answers protocol ⟨.locateProtocol protocol, direct⟩ :=
      hserves'.answers _ (by simp)
    rw [hfound rfl, h.eq_first hserves hgranted]

/-- A lookup on services without a direct search comes to what the first handle gives, and gives
back the list of the handles before it asks. -/
theorem handleLookup_of_runs {protocol : Guid} {es : List (Exchange Firmware)} {o : Option UInt64}
    (hrev : efi.table.servicesRevision < directSearchRevision)
    (h : Runs (efi.locateProtocol protocol) es o) :
    (efi.live = false ∧ o = none) ∨
      ∃ interface, o = some interface ∧ HandleLookup protocol es interface := by
  cases hl : efi.live with
  | false => exact .inl ⟨rfl, (runs_check_of_not_live hl h).2⟩
  | true =>
    obtain ⟨interface, rfl, hlookup⟩ := (ensures_lookedUp hl hrev protocol).exists_of_run h
    have hfreed := (balances_locateProtocol hl protocol).of_runs h
    refine .inr ⟨interface, rfl, hlookup.listsHandles, ?_, hlookup.interface_eq, hlookup.zero_iff,
      hfreed, directAgrees hlookup⟩
    intro pre handle p got post hes
    obtain ⟨rfl, hsought, rfl⟩ := hlookup.asked_inv hes
    -- Asking lends nothing and gives nothing back, so the ledger is even before it.
    rw [hes] at hfreed
    exact ⟨rfl, hsought.firstHandle, hfreed.of_concat_idle rfl rfl, rfl⟩

/-- Two handles for a protocol, as the older firmware answers. -/
def twoHandles : Registry := ⟨[0x1000, 0x1001], fun _ => 0x2000⟩

/-- A lookup on that firmware. -/
def olderLookup : List (Exchange Firmware) :=
  [⟨.locateHandle byProtocol .graphicsOutput 8 .single, ⟨.bufferTooSmall, ⟨16, 0⟩⟩⟩,
    ⟨.allocatePool loaderData 16, ⟨.success, 0x1000⟩⟩,
    ⟨.locateHandle byProtocol .graphicsOutput 16 (.pool 0x1000), ⟨.success, ⟨16, 0⟩⟩⟩,
    ⟨.load 0x1000, 0x1000⟩, ⟨.freePool 0x1000, .success⟩,
    ⟨.handleProtocol 0x1000 .graphicsOutput, ⟨.success, 0x2000⟩⟩]

theorem runs_olderLookup :
    Runs (olderServices.locateProtocol .graphicsOutput) olderLookup (some 0x2000) := by
  have hlookup : (olderServices.locateProtocol .graphicsOutput).exchanges olderFirmware 0 =
      olderLookup := rfl
  rw [← hlookup]
  exact runs_exchanges olderFirmware (olderServices.locateProtocol .graphicsOutput) 0

/-- It is served from a registry of two handles. -/
theorem serves_olderLookup : twoHandles.Serves .graphicsOutput olderLookup := by
  constructor
  · intro e he
    simp only [olderLookup, List.mem_cons, List.not_mem_nil, or_false] at he
    rcases he with rfl | rfl | rfl | rfl | rfl | rfl
    · exact fun _ => .short (by decide) (by decide) rfl (by decide)
    · trivial
    · exact fun _ => .listed (by decide) (by decide) rfl nofun
    · trivial
    · trivial
    · exact fun _ _ => rfl
  · intro size buffer got handle hpart _
    have hhandle : handle = 0x1000 := by
      simp [olderLookup, List.infix_cons_iff] at hpart
      exact hpart.2.2
    rw [hhandle]
    rfl

/-- Its first handle is asked there, after the list was given back, and newer services that serve
the same registry find the same interface. -/
theorem handleLookup_olderLookup :
    Runs (olderServices.locateProtocol .graphicsOutput) olderLookup (some 0x2000) ∧
      HandleLookup .graphicsOutput olderLookup 0x2000 ∧
        ∀ es o, Runs (smallServices.locateProtocol .graphicsOutput) es o →
          twoHandles.Serves .graphicsOutput es → o = some 0x2000 := by
  rcases handleLookup_of_runs (by decide) runs_olderLookup with ⟨-, h⟩ | ⟨_, ho, h⟩
  · cases h
  · cases ho
    refine ⟨runs_olderLookup, h, fun es o hr' hserves => ?_⟩
    have hgranted : ∀ granted ∈ poolAnswers olderLookup, granted.IsObject := by
      simp [olderLookup, Answer.IsObject, Status.isError_success]
    exact h.direct.served smallServices es o rfl (by decide) hr' twoHandles serves_olderLookup
      hserves hgranted

end Services

end Bootloader.Uefi

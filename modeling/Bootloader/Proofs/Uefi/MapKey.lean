import Bootloader.Proofs.Uefi.Boot

/-!
# The key that ends the services

The firmware ends its services only for the key of its present memory map, and nearly every call
may change the map.  In each run of the boot every attempt to end the services comes directly after
the call for the map that its key is from, there are only so many attempts, each further one was
made because of a refusal, and between them nothing but the map is asked for (`FreshKeys`,
`freshKeys_boot`).
-/

namespace Bootloader.Uefi

open Program

/-- What keeps the key fresh in every attempt of a run to end the services. -/
structure FreshKeys (es : List (Exchange Firmware)) : Prop where
  fresh : ∀ pre image key (status : Status) post,
    es = pre ++ ⟨.exitBootServices image key, status⟩ :: post →
      ∃ pre' size buffer got, pre = pre' ++ [⟨.getMemoryMap size buffer, got⟩] ∧
        got.status.isError = false ∧ got.value.key = some key
  few : es.countP isExit ≤ 2
  refused : ∀ pre e mid e' post, es = pre ++ e :: mid ++ e' :: post → isExit e = true →
    isExit e' = true → Refused e
  quiet : ∀ pre e mid e' post, es = pre ++ e :: mid ++ e' :: post → isExit e = true →
    isExit e' = true → ∀ x ∈ mid, ∃ size buffer, x.1 = .getMemoryMap size buffer

theorem freshKeys_of_not_isExit {es : List (Exchange Firmware)}
    (h : ∀ e ∈ es, isExit e = false) : FreshKeys es where
  fresh pre image key status post hes := by
    have := h ⟨.exitBootServices image key, status⟩ (by simp [hes])
    cases this
  few := by
    rw [List.countP_eq_zero.2 fun e he => by simp [h e he]]
    omega
  refused pre e mid e' post hes he _ := by
    rw [h e (by simp [hes])] at he
    cases he
  quiet pre e mid e' post hes he _ := by
    rw [h e (by simp [hes])] at he
    cases he

theorem isExit_eq_false {e : Exchange Firmware} (h : ¬e.1.IsEnd) : isExit e = false := by
  obtain ⟨q, r⟩ := e
  cases q <;> first | rfl | exact (h trivial).elim

section Attempts

variable {es₀ es₁ es₂ : List (Exchange Firmware)} {e₀ : Exchange Firmware}
variable {map map' : MemoryMap} {info info' : BootInfo} {image : UInt64} {status : Status}

/-- Two calls that end the services are among the attempts, with all that is between them. -/
theorem mem_attempts {pre mid post : List (Exchange Firmware)} {e e' : Exchange Firmware}
    (h₀ : ∀ x ∈ es₀, isExit x = false) (h₂ : ∀ x ∈ es₂, isExit x = false)
    (hes : es₀ ++ (es₁ ++ es₂) = pre ++ e :: mid ++ e' :: post) (he : isExit e = true)
    (he' : isExit e' = true) : ∃ pre' post', es₁ = pre' ++ e :: mid ++ e' :: post' := by
  rw [List.append_assoc, List.cons_append] at hes
  obtain ⟨pre', -, hes⟩ := split_right hes fun hx => by simp [h₀ e hx] at he
  rw [← List.cons_append, ← List.append_assoc] at hes
  obtain ⟨post', -, hes⟩ := split_left hes fun hx => by simp [h₂ e' hx] at he'
  exact ⟨pre', post', hes⟩

theorem isChain_of_not_isExit : ∀ {es : List (Exchange Firmware)},
    (∀ x ∈ es, isExit x = false) → List.IsChain FollowsMap es
  | [], _ => .nil
  | [_], _ => .singleton _
  | _ :: y :: es, h => by
    rw [List.forall_mem_cons] at h
    exact .cons_cons (followsMap_of_not_isExit (h.2 y (by simp))) (isChain_of_not_isExit h.2)

theorem MemoryMap.TakenBy.isExit_eq_false (he : map.TakenBy e₀) : isExit e₀ = false := by
  obtain ⟨_, _, rfl⟩ := he
  rfl

theorem isChain_attempts (h₀ : ∀ x ∈ es₀, isExit x = false) (h₂ : ∀ x ∈ es₂, isExit x = false)
    (he : map.TakenBy e₀) (h : Attempts image exitRetries map info es₁ status map' info')
    (hw : ∀ x ∈ es₁, WritesMap x) : List.IsChain FollowsMap (es₀ ++ e₀ :: (es₁ ++ es₂)) := by
  have hmiddle : List.IsChain FollowsMap (e₀ :: (es₁ ++ es₂)) := by
    rw [← List.cons_append]
    exact (h.isChain he hw).append (isChain_of_not_isExit h₂) fun _ _ y hy =>
      followsMap_of_not_isExit (h₂ y (List.mem_of_mem_head? hy))
  refine (isChain_of_not_isExit h₀).append hmiddle fun _ _ y hy => ?_
  rw [List.head?_cons, Option.mem_some_iff] at hy
  exact followsMap_of_not_isExit (hy ▸ he.isExit_eq_false)

/-- Attempts that begin with the key of a fresh snapshot keep the key fresh. -/
theorem freshKeys_of_attempts (h₀ : ∀ x ∈ es₀, isExit x = false)
    (h₂ : ∀ x ∈ es₂, isExit x = false) (he : map.TakenBy e₀)
    (h : Attempts image exitRetries map info es₁ status map' info')
    (hw : ∀ x ∈ es₁, WritesMap x) : FreshKeys (es₀ ++ e₀ :: (es₁ ++ es₂)) := by
  have hbefore : ∀ x ∈ es₀ ++ [e₀], isExit x = false := by
    simpa [or_imp, forall_and] using ⟨h₀, he.isExit_eq_false⟩
  have hsplit : es₀ ++ e₀ :: (es₁ ++ es₂) = (es₀ ++ [e₀]) ++ (es₁ ++ es₂) := by simp
  have hretries : exitRetries = 1 := rfl
  refine ⟨fun pre image' key status' post hes => ?_, ?_, ?_, ?_⟩
  · obtain ⟨pre', rfl, -⟩ := split_right (hsplit ▸ hes) fun hx => by
      simpa [isExit, Call.isExit] using hbefore _ hx
    have hchain := isChain_attempts h₀ h₂ he h hw
    rcases List.eq_nil_or_concat (es₀ ++ [e₀] ++ pre') with hnil | ⟨init, last, hlast⟩
    · simp at hnil
    · rw [List.concat_eq_append] at hlast
      rw [hes, hlast, List.append_assoc, List.singleton_append, List.isChain_append_cons_cons]
        at hchain
      obtain ⟨size, buffer, got, rfl, hgot⟩ := hchain.2.1 image' key status' rfl
      exact ⟨init, size, buffer, got, hlast, hgot⟩
  · have hzero : ∀ {es : List (Exchange Firmware)}, (∀ x ∈ es, isExit x = false) →
        es.countP isExit = 0 := fun h => List.countP_eq_zero.2 fun x hx => by simp [h x hx]
    have hle := h.countP_le
    rw [hsplit, List.countP_append, hzero hbefore, List.countP_append, hzero h₂]
    omega
  · intro pre e mid e' post hes hexit hexit'
    obtain ⟨pre', post', rfl⟩ := mem_attempts hbefore h₂ (hsplit ▸ hes) hexit hexit'
    have hp := h.pairwise
    simp only [List.append_assoc, List.cons_append, List.pairwise_append, List.pairwise_cons] at hp
    exact hp.2.1.1 e' (by simp) hexit hexit'
  · intro pre e mid e' post hes hexit hexit' x hx
    obtain ⟨pre', post', rfl⟩ := mem_attempts hbefore h₂ (hsplit ▸ hes) hexit hexit'
    rcases h.quiet x (by simp [hx]) with hx' | hx'
    · have hle := h.countP_le
      have hpos : 0 < mid.countP isExit := List.countP_pos_iff.2 ⟨x, hx, hx'⟩
      simp only [List.countP_append, List.countP_cons, hexit, hexit', if_true] at hle
      omega
    · exact hx'

end Attempts

namespace Services

variable {efi : Services}

theorem isExit_eq_false_of_abandoned {es : List (Exchange Firmware)} {status : Status}
    {state : Handover} (h : es.map (·.1) = abandonCalls status state) :
    ∀ e ∈ es, isExit e = false := by
  rintro ⟨q, r⟩ he
  have hq := isParting_of_abandoned h _ he
  cases q <;> first | rfl | exact hq.elim

theorem isExit_entered (info : BootInfo) : ∀ e ∈ entered info, isExit e = false := by
  simp [entered, enteringCall, isExit, Call.isExit]

/-- In every run of the boot the services are ended with a fresh key. -/
theorem freshKeys_boot {es : List (Exchange Firmware)} {o : Option Ending}
    (h : Runs efi.boot es o) (hw : ∀ e ∈ es, WritesMap e) : FreshKeys es := by
  have hbefore : ∀ {es o}, efi.live = true → Runs efi.prepare es o →
      ∀ e ∈ es, isExit e = false := by
    intro es o hl hr e he
    exact isExit_eq_false ((beforeEnd_prepare hl).of_runs hr e he)
  cases booted_of_runs h with
  | misused hl => exact freshKeys_of_not_isExit (by simp [isExit, Call.isExit])
  | returned hl hr => exact freshKeys_of_not_isExit (hbefore hl hr)
  | @halted es₁ es₂ state final hl hr hend =>
    rw [List.forall_mem_append] at hw
    obtain ⟨es₀, e, rfl, he⟩ := (ensures_prepare_map hl).of_runs hr hw.1 state rfl
    have h₀ : ∀ x ∈ es₀, isExit x = false := fun x hx => hbefore hl hr x (by simp [hx])
    rw [List.append_assoc, List.singleton_append]
    cases hend with
    | refused hattempts hs hend =>
      exact freshKeys_of_attempts h₀ (isExit_eq_false_of_abandoned hend) he hattempts
        (List.forall_mem_append.1 hw.2).1
    | entered hattempts hs =>
      exact freshKeys_of_attempts h₀ (isExit_entered _) he hattempts
        (List.forall_mem_append.1 hw.2).1

/-- There are firmwares that need both attempts. -/
theorem freshKeys_smallBoot : FreshKeys smallBoot ∧ smallBoot.countP isExit = 2 := by
  obtain ⟨o, h⟩ := runs_smallBoot
  exact ⟨freshKeys_boot h writesMap_smallBoot, by decide +kernel⟩

end Services

end Bootloader.Uefi

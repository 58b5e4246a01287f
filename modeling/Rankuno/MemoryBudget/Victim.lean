import Mathlib.Algebra.Order.BigOperators.Group.List
import Rankuno.MemoryBudget.Calls

/-!
# Fair share first, then largest

Which account a charge stops, and which it never does. Only a charge on an open
account that leaves the projected total at the budget flags anyone, and then it
flags the largest open account over its fair share. The last part is a
pigeonhole: no more accounts than shares cannot hold more than the budget
without one of them holding more than its share.
-/

namespace Rankuno

namespace BudgetCall

/-- The account a charging call is made on. -/
def chargeTarget : BudgetCall → Option Nat
  | .charge sequence _ _ => some sequence
  | .chargeLinks sequence _ => some sequence
  | _ => none

end BudgetCall

namespace MemoryBudget

variable {b b' : MemoryBudget} {op : BudgetCall}

/-- The account at this sequence number was asked to stop. -/
def IsFlagged (b : MemoryBudget) (i : Nat) : Prop :=
  ∃ a, b.objects[i]? = some a ∧ a.stopRequested = true

/-- The account is open, has landed a page and projects more than `share`. -/
def IsOverShare (b : MemoryBudget) (share : Int) (i : Nat) (a : MemoryAccount) : Prop :=
  i ∈ b.accounts ∧ b.objects[i]? = some a ∧ share < a.projectedBytes

/-- What one call from `b` to `b'` may do to the stop flags of a budget of
`budgetBytes` split into `fairShareSlots` shares. -/
structure VictimPolicy (budgetBytes fairShareSlots : Int) (b : MemoryBudget)
    (op : BudgetCall) (reply : Except ValueError (Option MemoryLog)) (b' : MemoryBudget) :
    Prop where
  /-- Only a charge on an open account that leaves the budget reached flags. -/
  only_charges : ∀ i, b'.IsFlagged i → ¬b.IsFlagged i →
    ∃ s, op.chargeTarget = some s ∧ s ∈ b'.accounts ∧ budgetBytes ≤ b'.projectedLocked
  /-- The flagged account has landed a page and is over its share, and no other
  unflagged account like it is larger, or as large and opened later. -/
  largest : ∀ i, b'.IsFlagged i → ¬b.IsFlagged i →
    ∃ a, b'.IsOverShare (budgetBytes / fairShareSlots) i a ∧ 0 < a.pages ∧
      ∀ j c, b'.IsOverShare (budgetBytes / fairShareSlots) j c → 0 < c.pages → ¬b.IsFlagged j →
        c.projectedBytes < a.projectedBytes ∨ c.projectedBytes = a.projectedBytes ∧ j ≤ i
  /-- A flag is never cleared. -/
  kept : ∀ i, b.IsFlagged i → b'.IsFlagged i
  /-- After a charge on an open account that leaves the total above the budget
  with no more accounts open than shares, some account over its share is
  flagged or has landed nothing. -/
  someone_stops : ∀ s log, op.chargeTarget = some s → reply = .ok log → s ∈ b'.accounts →
    budgetBytes < b'.projectedLocked → (b'.accounts.length : Int) ≤ fairShareSlots →
    ∃ i a, b'.IsOverShare (budgetBytes / fairShareSlots) i a ∧
      (a.stopRequested = true ∨ a.pages = 0)

/-- The limits a budget was built with, and its accounts at their numbers. -/
structure Configured (budgetBytes fairShareSlots : Int) (b : MemoryBudget) : Prop where
  indexed : b.Indexed
  budget : b.budgetBytes = budgetBytes
  share : b.fairShareBytes = budgetBytes / fairShareSlots
  budget_pos : 0 < budgetBytes
  slots_pos : 0 < fairShareSlots

variable {budgetBytes fairShareSlots : Int} {reply : Except ValueError (Option MemoryLog)}

theorem Configured.init
    (start : init budgetBytes fairShareSlots = .ok b) :
    Configured budgetBytes fairShareSlots b := by
  unfold MemoryBudget.init at start
  split at start
  · cases start
  · next positive =>
    cases start
    exact ⟨fun i a ha => by simp at ha, rfl, rfl, by omega, by omega⟩

theorem Configured.call (h : Configured budgetBytes fairShareSlots b)
    (hcall : b.call op = some (reply, b')) : Configured budgetBytes fairShareSlots b' := by
  have limits : b'.budgetBytes = b.budgetBytes ∧ b'.fairShareBytes = b.fairShareBytes := by
    cases call_cases h.indexed hcall with
    | raised e => exact ⟨rfl, rfl⟩
    | opened id ceiling hop => exact ⟨rfl, rfl⟩
    | closed s logged hop => exact ⟨rfl, rfl⟩
    | charged s f move log =>
      rcases afterChargeLocked_cases (b.update s f) s with
        ⟨victim, -, -, -, settled⟩ | ⟨logged, -, settled⟩
      all_goals
        rw [settled]
        exact ⟨rfl, rfl⟩
    | credited s f logged move log => exact ⟨rfl, rfl⟩
  exact ⟨h.indexed.call hcall, limits.1.trans h.budget, limits.2.trans h.share, h.budget_pos,
    h.slots_pos⟩

@[simp] theorem requestStop_projectedLocked (b : MemoryBudget) (s : Nat) :
    (b.update s MemoryAccount.requestStop).projectedLocked = b.projectedLocked := by
  have same : ∀ i : Nat, ((b.update s MemoryAccount.requestStop).objects[i]?).map
      MemoryAccount.projectedBytes = (b.objects[i]?).map MemoryAccount.projectedBytes := by
    intro i
    rw [update_objects, Option.map_map]
    congr 1
    funext a
    by_cases hi : i = s <;> simp [hi]
  simp only [projectedLocked, openAccounts, List.map_filterMap, update_accounts, same]

theorem isFlagged_update_requestStop {s i : Nat} :
    (b.update s MemoryAccount.requestStop).IsFlagged i ↔
      b.IsFlagged i ∨ i = s ∧ ∃ a, b.objects[i]? = some a := by
  unfold IsFlagged
  rw [update_objects]
  cases b.objects[i]? with
  | none => simp
  | some a => by_cases hi : i = s <;> simp [hi]

theorem isFlagged_update {s i : Nat} {f : MemoryAccount → MemoryAccount}
    (keep : ∀ a, (f a).stopRequested = a.stopRequested) :
    (b.update s f).IsFlagged i ↔ b.IsFlagged i := by
  unfold IsFlagged
  rw [update_objects]
  cases b.objects[i]? with
  | none => simp
  | some a => by_cases hi : i = s <;> simp [hi, keep]

theorem exists_overShare
    (slots_pos : 0 < fairShareSlots) (budget_pos : 0 < budgetBytes)
    (few : (b.accounts.length : Int) ≤ fairShareSlots)
    (above : budgetBytes < b.projectedLocked) :
    ∃ i a, b.IsOverShare (budgetBytes / fairShareSlots) i a := by
  by_contra none_over
  have within : ∀ x ∈ b.openAccounts.map MemoryAccount.projectedBytes,
      x ≤ budgetBytes / fairShareSlots := by
    intro x hx
    obtain ⟨a, ha, rfl⟩ := List.mem_map.mp hx
    obtain ⟨i, hi, hobject⟩ := mem_openAccounts.mp ha
    by_contra big
    exact none_over ⟨i, a, hi, hobject, not_le.mp big⟩
  have total := List.sum_le_card_nsmul _ _ within
  have count : b.openAccounts.length ≤ b.accounts.length := List.length_filterMap_le _ _
  have share_nonneg : 0 ≤ budgetBytes / fairShareSlots :=
    Int.ediv_nonneg budget_pos.le slots_pos.le
  rw [List.length_map, nsmul_eq_mul] at total
  have bound : b.projectedLocked ≤ budgetBytes := by
    calc b.projectedLocked
        ≤ (b.openAccounts.length : Int) * (budgetBytes / fairShareSlots) := total
      _ ≤ fairShareSlots * (budgetBytes / fairShareSlots) :=
          Int.mul_le_mul_of_nonneg_right (by omega) share_nonneg
      _ ≤ budgetBytes := Int.mul_ediv_self_le slots_pos.ne'
  omega

theorem VictimPolicy.of_quiet
    (flags : ∀ i, b'.IsFlagged i ↔ b.IsFlagged i)
    (someone_stops : ∀ s log, op.chargeTarget = some s → reply = .ok log → s ∈ b'.accounts →
      budgetBytes < b'.projectedLocked → (b'.accounts.length : Int) ≤ fairShareSlots →
      ∃ i a, b'.IsOverShare (budgetBytes / fairShareSlots) i a ∧
        (a.stopRequested = true ∨ a.pages = 0)) :
    VictimPolicy budgetBytes fairShareSlots b op reply b' where
  only_charges i now before := absurd ((flags i).mp now) before
  largest i now before := absurd ((flags i).mp now) before
  kept i before := (flags i).mpr before
  someone_stops := someone_stops

theorem Charges.chargeTarget {s f} (move : Charges op s f) : op.chargeTarget = some s := by
  cases move <;> rfl

theorem Credits.chargeTarget {s f} (move : Credits op s f) : op.chargeTarget = none := by
  cases move <;> rfl

theorem chooseVictimLocked_spec (indexed : b.Indexed) {v : MemoryAccount}
    (chosen : b.chooseVictimLocked = some v) :
    v.sequence ∈ b.accounts ∧ b.objects[v.sequence]? = some v ∧ b.IsCandidate v ∧
      ∀ (j : Nat) (c : MemoryAccount), j ∈ b.accounts → b.objects[j]? = some c →
        b.IsCandidate c → ¬victimKey v < victimKey c := by
  have mem : v ∈ b.openAccounts.filter fun a => b.IsCandidate a := List.argmax_mem chosen
  obtain ⟨hopen, candidate⟩ := List.mem_filter.mp mem
  obtain ⟨i, registered, object⟩ := mem_openAccounts.mp hopen
  obtain rfl : v.sequence = i := indexed i v object
  refine ⟨registered, object, of_decide_eq_true candidate, ?_⟩
  intro j c hj hc eligible
  exact List.not_lt_of_mem_argmax
    (List.mem_filter.mpr ⟨mem_openAccounts.mpr ⟨j, hj, hc⟩, decide_eq_true eligible⟩) chosen

theorem chooseVictimLocked_none (none_chosen : b.chooseVictimLocked = none) {i : Nat}
    {a : MemoryAccount} (above : b.IsOverShare b.fairShareBytes i a) :
    a.stopRequested = true ∨ a.pages = 0 := by
  have empty := List.argmax_eq_none.mp none_chosen
  by_contra unstopped
  have candidate : b.IsCandidate a := by
    refine ⟨?_, ?_, above.2.2⟩
    · omega
    · simp only [not_or, Bool.not_eq_true] at unstopped
      exact unstopped.1
  have mem : a ∈ b.openAccounts.filter fun a => b.IsCandidate a :=
    List.mem_filter.mpr
      ⟨mem_openAccounts.mpr ⟨i, above.1, above.2.1⟩, decide_eq_true candidate⟩
  rw [empty] at mem
  cases mem

theorem victimPolicy_flag {s : Nat}
    {f : MemoryAccount → MemoryAccount} {log : Option MemoryLog}
    (h : Configured budgetBytes fairShareSlots b) (move : Charges op s f) {v : MemoryAccount}
    (registered : s ∈ b.accounts) (reached : b.budgetBytes ≤ (b.update s f).projectedLocked)
    (chosen : (b.update s f).chooseVictimLocked = some v) :
    VictimPolicy budgetBytes fairShareSlots b op (.ok log)
      ((b.update s f).update v.sequence MemoryAccount.requestStop) := by
  obtain ⟨hv, object, ⟨landed, -, above⟩, top⟩ :=
    chooseVictimLocked_spec (h.indexed.update s fun _ a e => (move.sequence a).trans e) chosen
  have moved : ∀ i, (b.update s f).IsFlagged i ↔ b.IsFlagged i :=
    fun i => isFlagged_update move.stopRequested
  rw [update_fairShareBytes, h.share] at above
  -- the victim as it stands in the state the call leaves
  have stopped : ((b.update s f).update v.sequence MemoryAccount.requestStop).IsOverShare
      (budgetBytes / fairShareSlots) v.sequence v.requestStop := by
    refine ⟨hv, ?_, above⟩
    rw [update_objects, object]
    simp
  refine ⟨?_, ?_, ?_, ?_⟩
  · intro i _ _
    refine ⟨s, move.chargeTarget, registered, ?_⟩
    rw [requestStop_projectedLocked, ← h.budget]
    exact reached
  · intro i now before
    rw [isFlagged_update_requestStop, moved] at now
    obtain rfl : i = v.sequence := (now.resolve_left before).1
    refine ⟨v.requestStop, stopped, landed, ?_⟩
    rintro j c ⟨hj, hc, cover⟩ clanded unflagged
    rw [update_objects, Option.map_eq_some_iff] at hc
    obtain ⟨d, hd, rfl⟩ := hc
    have same : (if j = v.sequence then d.requestStop else d).projectedBytes =
        d.projectedBytes := by
      split <;> rfl
    have dlanded : 0 < d.pages := by
      split at clanded <;> exact clanded
    have dclear : d.stopRequested = false := by
      rw [← moved] at unflagged
      exact Bool.eq_false_iff.mpr fun flagged => unflagged ⟨d, hd, flagged⟩
    rw [same] at cover
    rw [same, MemoryAccount.requestStop_projectedBytes]
    have key := top j d hj hd ⟨dlanded, dclear, by
      rw [update_fairShareBytes, h.share]
      exact cover⟩
    have number : d.sequence = j :=
      h.indexed.update s (fun _ a e => (move.sequence a).trans e) j d hd
    simp only [victimKey, VictimKey.lt_iff, number] at key
    omega
  · intro i before
    rw [isFlagged_update_requestStop, moved]
    exact .inl before
  · intro _ _ _ _ _ _ _
    exact ⟨v.sequence, v.requestStop, stopped, .inl rfl⟩

theorem victimPolicy_call (h : Configured budgetBytes fairShareSlots b)
    (hcall : b.call op = some (reply, b')) :
    VictimPolicy budgetBytes fairShareSlots b op reply b' := by
  cases call_cases h.indexed hcall with
  | raised e =>
    refine .of_quiet (fun i => Iff.rfl) ?_
    intro s log _ raised
    cases raised
  | opened id ceiling hop =>
    refine .of_quiet (fun i => ?_) ?_
    · simp only [IsFlagged, List.getElem?_append]
      split
      · exact Iff.rfl
      · next beyond =>
        rw [List.getElem?_eq_none (not_lt.mp beyond), List.getElem?_singleton]
        split <;> simp [MemoryAccount.new]
    · intro s log target
      rw [hop] at target
      cases target
  | closed s logged hop =>
    refine .of_quiet (fun i => Iff.rfl) ?_
    intro t log target
    rw [hop] at target
    cases target
  | charged s f move log =>
    rcases afterChargeLocked_cases (b.update s f) s with
      ⟨v, registered, reached, chosen, settled⟩ | ⟨logged, reason, settled⟩
    · rw [settled]
      exact victimPolicy_flag h move registered reached chosen
    · rw [settled]
      refine .of_quiet (fun i => isFlagged_update move.stopRequested) ?_
      intro t _ target _ registered above few
      obtain rfl : s = t := Option.some.inj (move.chargeTarget.symm.trans target)
      have none_chosen : (b.update s f).chooseVictimLocked = none := by
        rcases reason with absent | below | none_chosen
        · exact absurd registered absent
        · rw [update_budgetBytes, h.budget] at below
          exact absurd above (not_lt.mpr below.le)
        · exact none_chosen
      obtain ⟨i, a, hover⟩ := exists_overShare h.slots_pos h.budget_pos few above
      refine ⟨i, a, hover, chooseVictimLocked_none none_chosen (i := i) ?_⟩
      rw [update_fairShareBytes, h.share]
      exact hover
  | credited s f logged move log =>
    refine .of_quiet (fun i => isFlagged_update move.stopRequested) ?_
    intro t _ target
    rw [move.chargeTarget] at target
    cases target

/-- In every state a budget reaches, every call follows the victim policy. -/
theorem fair_share_victim_policy {budgetBytes fairShareSlots : Int} {b₀ : MemoryBudget}
    (start : init budgetBytes fairShareSlots = .ok b₀) (calls : List BudgetCall) :
    machine.Always (fun b => ∀ op reply b', b.call op = some (reply, b') →
        VictimPolicy budgetBytes fairShareSlots b op reply b') b₀ calls := by
  have keep : ∀ b op b', Configured budgetBytes fairShareSlots b →
      machine.step b op = some b' → Configured budgetBytes fairShareSlots b' := by
    intro b op b' h hstep
    obtain ⟨reply, hcall⟩ := step_eq_some.mp hstep
    exact h.call hcall
  exact Machine.always_of_invariant keep (.init start)
    fun b h op reply b' hcall => victimPolicy_call h hcall

/-- Two crawls share a budget of 100; the one over 50 is flagged by the other's
charge, and the policy holds throughout. -/
theorem fair_share_on_two_crawls : machine.Always
        (fun b => ∀ op reply b', b.call op = some (reply, b') →
          VictimPolicy 100 2 b op reply b') ⟨100, 50, [], [], false⟩
        [.open "a" 1, .open "b" 1, .charge 0 30 0, .charge 1 25 0] ∧
      ((machine.run ⟨100, 50, [], [], false⟩
        [.open "a" 1, .open "b" 1, .charge 0 30 0, .charge 1 25 0]).map
          fun b => b.objects.map MemoryAccount.stopRequested) = some [true, false] :=
  ⟨@fair_share_victim_policy 100 2 ⟨100, 50, [], [], false⟩ rfl _, by decide⟩

end MemoryBudget

end Rankuno

import Rankuno.MemoryBudget.Budget

/-!
# What a call on the budget can do

One case analysis of every call, and from it the two ways a fact about single
accounts becomes a fact about calls: `Every.call` for what each account
satisfies, `evolves_call` for how each account changes.
-/

namespace Rankuno

namespace MemoryBudget

section Updates

variable (b : MemoryBudget) (s i : Nat) (f : MemoryAccount → MemoryAccount) (logged : Bool)

@[simp] theorem update_accounts : (b.update s f).accounts = b.accounts := rfl
@[simp] theorem update_budgetBytes : (b.update s f).budgetBytes = b.budgetBytes := rfl
@[simp] theorem update_fairShareBytes : (b.update s f).fairShareBytes = b.fairShareBytes := rfl

theorem update_objects :
    (b.update s f).objects[i]? = b.objects[i]?.map fun a => if i = s then f a else a := by
  simp only [update, List.getElem?_modify]
  by_cases same : s = i
  · simp [same]
  · simp [same, Ne.symm same]

@[simp] theorem setOverrunLogged_objects : (b.setOverrunLogged logged).objects = b.objects := rfl
@[simp] theorem setOverrunLogged_accounts : (b.setOverrunLogged logged).accounts = b.accounts := rfl
@[simp] theorem setOverrunLogged_budgetBytes :
    (b.setOverrunLogged logged).budgetBytes = b.budgetBytes := rfl
@[simp] theorem setOverrunLogged_fairShareBytes :
    (b.setOverrunLogged logged).fairShareBytes = b.fairShareBytes := rfl
@[simp] theorem setOverrunLogged_openAccounts :
    (b.setOverrunLogged logged).openAccounts = b.openAccounts := rfl
@[simp] theorem setOverrunLogged_projectedLocked :
    (b.setOverrunLogged logged).projectedLocked = b.projectedLocked := rfl

end Updates

theorem mem_openAccounts {b : MemoryBudget} {a : MemoryAccount} :
    a ∈ b.openAccounts ↔ ∃ i ∈ b.accounts, b.objects[i]? = some a := by
  simp [openAccounts]

/-- Every account object satisfies `P`, whether it is registered or not. -/
def Every (P : Nat → MemoryAccount → Prop) (b : MemoryBudget) : Prop :=
  ∀ (i : Nat) (a : MemoryAccount), b.objects[i]? = some a → P i a

theorem Every.update {P : Nat → MemoryAccount → Prop} {b : MemoryBudget} (h : Every P b)
    (s : Nat) {f : MemoryAccount → MemoryAccount} (keep : ∀ i a, P i a → P i (f a)) :
    Every P (b.update s f) := by
  intro i a ha
  rw [update_objects, Option.map_eq_some_iff] at ha
  obtain ⟨c, hc, rfl⟩ := ha
  split
  · exact keep i c (h i c hc)
  · exact h i c hc

/-- Every account object stands at its own sequence number, so the registry's
keys and the objects agree about which account is meant. -/
def Indexed (b : MemoryBudget) : Prop := Every (fun i a => a.sequence = i) b

/-- The counter updates of the two charging calls that do not raise. -/
inductive Charges : BudgetCall → Nat → (MemoryAccount → MemoryAccount) → Prop where
  | charge {s n o} (hn : 0 ≤ n) (ho : 0 ≤ o) :
      Charges (.charge s n o) s (MemoryAccount.landPage n o)
  | chargeLinks {s n} (hn : 0 ≤ n) : Charges (.chargeLinks s n) s (MemoryAccount.holdLinks n)

/-- The counter updates of the two crediting calls that do not raise. -/
inductive Credits : BudgetCall → Nat → (MemoryAccount → MemoryAccount) → Prop where
  | credit {s n} (hn : 0 ≤ n) : Credits (.credit s n) s (MemoryAccount.releaseBody n)
  | creditLinks {s n} (hn : 0 ≤ n) : Credits (.creditLinks s n) s (MemoryAccount.releaseLinks n)

theorem Charges.sequence {op s f} (h : Charges op s f) (a : MemoryAccount) :
    (f a).sequence = a.sequence := by
  cases h <;> rfl

theorem Charges.stopRequested {op s f} (h : Charges op s f) (a : MemoryAccount) :
    (f a).stopRequested = a.stopRequested := by
  cases h <;> rfl

theorem Credits.sequence {op s f} (h : Credits op s f) (a : MemoryAccount) :
    (f a).sequence = a.sequence := by
  cases h <;> rfl

theorem Credits.stopRequested {op s f} (h : Credits op s f) (a : MemoryAccount) :
    (f a).stopRequested = a.stopRequested := by
  cases h <;> rfl

def unregister (b : MemoryBudget) (s : Nat) : MemoryBudget :=
  { b with accounts := b.accounts.filter (· ≠ s) }

theorem afterChargeLocked_cases (b : MemoryBudget) (s : Nat) :
    (∃ victim, s ∈ b.accounts ∧ b.budgetBytes ≤ b.projectedLocked ∧
      b.chooseVictimLocked = some victim ∧
      (b.afterChargeLocked s).2 = b.update victim.sequence MemoryAccount.requestStop) ∨
    (∃ logged, (s ∉ b.accounts ∨ b.projectedLocked < b.budgetBytes ∨ b.chooseVictimLocked = none) ∧
      (b.afterChargeLocked s).2 = b.setOverrunLogged logged) := by
  unfold afterChargeLocked
  by_cases registered : s ∈ b.accounts
  · by_cases below : b.projectedLocked < b.budgetBytes
    · exact .inr ⟨false, .inr (.inl below), by simp [registered, below]⟩
    · cases chosen : b.chooseVictimLocked with
      | some victim =>
        exact .inl ⟨victim, registered, not_lt.mp below, rfl, by simp [registered, below]⟩
      | none =>
        refine .inr ⟨true, .inr (.inr rfl), ?_⟩
        cases logged : b.overrunLogged
        · simp [registered, below]
        · simp [registered, below, setOverrunLogged, ← logged]
  · exact .inr ⟨b.overrunLogged, .inl registered, by simp [registered, setOverrunLogged]⟩

theorem rearmLocked_cases (b : MemoryBudget) (s : Nat) :
    ∃ logged, b.rearmLocked s = b.setOverrunLogged logged := by
  unfold rearmLocked
  split
  · exact ⟨false, rfl⟩
  · exact ⟨b.overrunLogged, rfl⟩

/-- Everything a call can do. -/
inductive CallCases (b : MemoryBudget) (op : BudgetCall) :
    Except ValueError (Option MemoryLog) → MemoryBudget → Prop where
  | raised (e : ValueError) : CallCases b op (.error e) b
  | opened (id : String) (ceiling : Int) (hop : op = .open id ceiling) : CallCases b op (.ok none)
        { b with
          objects := b.objects ++ [MemoryAccount.new id b.objects.length ceiling]
          accounts := b.accounts ++ [b.objects.length] }
  | closed (s : Nat) (logged : Bool) (hop : op = .close s) :
      CallCases b op (.ok none) ((b.unregister s).setOverrunLogged logged)
  | charged (s : Nat) (f) (move : Charges op s f) (log : Option MemoryLog) :
      CallCases b op (.ok log) ((b.update s f).afterChargeLocked s).2
  | credited (s : Nat) (f) (logged : Bool) (move : Credits op s f) (log : Option MemoryLog) :
      CallCases b op (.ok log) ((b.update s f).setOverrunLogged logged)

theorem call_cases {b b' : MemoryBudget} {op : BudgetCall}
    {reply : Except ValueError (Option MemoryLog)} (indexed : b.Indexed)
    (h : b.call op = some (reply, b')) : CallCases b op reply b' := by
  cases op with
  | «open» id ceiling =>
    cases h
    exact .opened id ceiling rfl
  | close s =>
    obtain ⟨a, ha, hr⟩ := Option.map_eq_some_iff.mp h
    obtain rfl : a.sequence = s := indexed s a ha
    simp only [close, Prod.mk.injEq] at hr
    obtain ⟨rfl, rfl⟩ := hr
    split
    · exact .closed _ false rfl
    · exact .closed _ b.overrunLogged rfl
  | charge s n o =>
    obtain ⟨a, ha, hr⟩ := Option.map_eq_some_iff.mp h
    obtain rfl : a.sequence = s := indexed s a ha
    unfold charge at hr
    split at hr
    · cases hr
      exact .raised _
    · next amounts =>
      simp only [not_or, not_lt] at amounts
      cases hr
      exact .charged _ _ (.charge amounts.1 amounts.2) _
  | chargeLinks s n =>
    obtain ⟨a, ha, hr⟩ := Option.map_eq_some_iff.mp h
    obtain rfl : a.sequence = s := indexed s a ha
    unfold chargeLinks at hr
    split at hr
    · cases hr
      exact .raised _
    · next amount =>
      cases hr
      exact .charged _ _ (.chargeLinks (not_lt.mp amount)) _
  | credit s n =>
    obtain ⟨a, ha, hr⟩ := Option.map_eq_some_iff.mp h
    obtain rfl : a.sequence = s := indexed s a ha
    unfold credit at hr
    split at hr
    · cases hr
      exact .raised _
    · next amount =>
      cases hr
      obtain ⟨logged, hl⟩ :=
        rearmLocked_cases (b.update a.sequence (MemoryAccount.releaseBody n)) a.sequence
      rw [hl]
      exact .credited _ _ logged (.credit (not_lt.mp amount)) _
  | creditLinks s n =>
    obtain ⟨a, ha, hr⟩ := Option.map_eq_some_iff.mp h
    obtain rfl : a.sequence = s := indexed s a ha
    unfold creditLinks at hr
    split at hr
    · cases hr
      exact .raised _
    · next amount =>
      cases hr
      obtain ⟨logged, hl⟩ :=
        rearmLocked_cases (b.update a.sequence (MemoryAccount.releaseLinks n)) a.sequence
      rw [hl]
      exact .credited _ _ logged (.creditLinks (not_lt.mp amount)) _

section Calls

variable {b b' : MemoryBudget} {op : BudgetCall}

variable {R : MemoryAccount → MemoryAccount → Prop} {reply : Except ValueError (Option MemoryLog)}

theorem Every.call {P : Nat → MemoryAccount → Prop} (indexed : b.Indexed)
    (new : ∀ id s ceiling, P s (MemoryAccount.new id s ceiling))
    (stop : ∀ i a, P i a → P i a.requestStop)
    (charge : ∀ {op s f}, Charges op s f → ∀ i a, P i a → P i (f a))
    (credit : ∀ {op s f}, Credits op s f → ∀ i a, P i a → P i (f a))
    (h : Every P b) (hcall : b.call op = some (reply, b')) : Every P b' := by
  cases call_cases indexed hcall with
  | raised e => exact h
  | opened id ceiling hop =>
    intro i a ha
    rw [List.getElem?_append] at ha
    split at ha
    · exact h i a ha
    · next beyond =>
      rw [List.getElem?_singleton] at ha
      split at ha
      · next last =>
        obtain rfl : i = b.objects.length := by omega
        cases ha
        exact new id _ ceiling
      · cases ha
  | closed s logged hop => exact h
  | charged s f move log =>
    have moved : Every P (b.update s f) := h.update s (charge move)
    rcases afterChargeLocked_cases (b.update s f) s with
      ⟨victim, -, -, -, settled⟩ | ⟨logged, -, settled⟩
    · rw [settled]
      exact moved.update victim.sequence stop
    · rw [settled]
      exact moved
  | credited s f logged move log => exact h.update s (credit move)

/-- Every account of the first state is still there, related by `R`. -/
def Evolves (R : MemoryAccount → MemoryAccount → Prop) (b b' : MemoryBudget) : Prop :=
  ∀ (i : Nat) (a : MemoryAccount), b.objects[i]? = some a → ∃ a', b'.objects[i]? = some a' ∧ R a a'

theorem Evolves.refl (hR : ∀ a, R a a)
    (b : MemoryBudget) : Evolves R b b :=
  fun _ a ha => ⟨a, ha, hR a⟩

theorem Evolves.trans
    (hR : ∀ a b c, R a b → R b c → R a c) {c : MemoryBudget}
    (h : Evolves R b b') (k : Evolves R b' c) : Evolves R b c := by
  intro i a ha
  obtain ⟨a', ha', haa'⟩ := h i a ha
  obtain ⟨a'', ha'', haa''⟩ := k i a' ha'
  exact ⟨a'', ha'', hR a a' a'' haa' haa''⟩

theorem evolves_update (hR : ∀ a, R a a)
    (s : Nat) {f : MemoryAccount → MemoryAccount} (move : ∀ a, R a (f a)) :
    Evolves R b (b.update s f) := by
  intro i a ha
  rw [update_objects, ha]
  refine ⟨_, rfl, ?_⟩
  split
  · exact move a
  · exact hR a

theorem evolves_call (indexed : b.Indexed)
    (refl : ∀ a, R a a) (trans : ∀ a b c, R a b → R b c → R a c)
    (stop : ∀ a, R a a.requestStop)
    (charge : ∀ {op s f}, Charges op s f → ∀ a, R a (f a))
    (credit : ∀ {op s f}, Credits op s f → ∀ a, R a (f a))
    (hcall : b.call op = some (reply, b')) : Evolves R b b' := by
  cases call_cases indexed hcall with
  | raised e => exact .refl refl b
  | opened id ceiling hop =>
    intro i a ha
    have known := (List.getElem?_eq_some_iff.mp ha).1
    exact ⟨a, by rw [List.getElem?_append_left known, ha], refl a⟩
  | closed s logged hop => exact .refl refl b
  | charged s f move log =>
    have moved : Evolves R b (b.update s f) := evolves_update refl s (charge move)
    rcases afterChargeLocked_cases (b.update s f) s with
      ⟨victim, -, -, -, settled⟩ | ⟨logged, -, settled⟩
    · rw [settled]
      exact moved.trans trans (evolves_update refl victim.sequence stop)
    · rw [settled]
      exact moved
  | credited s f logged move log => exact evolves_update refl s (credit move)

theorem Indexed.call (indexed : b.Indexed)
    (hcall : b.call op = some (reply, b')) : b'.Indexed :=
  Every.call indexed (fun _ _ _ => rfl) (fun _ _ h => h)
    (fun move i a (h : a.sequence = i) => (move.sequence a).trans h)
    (fun move i a (h : a.sequence = i) => (move.sequence a).trans h) indexed hcall

end Calls

end MemoryBudget

end Rankuno

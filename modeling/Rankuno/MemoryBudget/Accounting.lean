import Rankuno.MemoryBudget.Calls

/-!
# The counters of every account stay consistent

Each account object represents a `Holding`, and each call on the budget moves
the holding it represents. What a holding guarantees by construction, every
account therefore satisfies in every state: its charge is the overhead plus
what the two pools have outstanding, and no pool returns more than it took.
-/

namespace Rankuno

namespace MemoryAccount

/-- The charge splits into the overhead and the outstanding bytes of the two
pools, neither of which is ever over-credited. -/
structure Balanced (a : MemoryAccount) : Prop where
  charged : a.chargedBytes = a.overheadBytes + (a.landedBodyBytes - a.creditedBodyBytes) +
      (a.linksChargedBytes - a.linksCreditedBytes)
  credited_nonneg : 0 ≤ a.creditedBodyBytes
  credited_le : a.creditedBodyBytes ≤ a.landedBodyBytes
  linksCredited_nonneg : 0 ≤ a.linksCreditedBytes
  linksCredited_le : a.linksCreditedBytes ≤ a.linksChargedBytes
  overhead_kept : a.overheadBytes ≤ a.chargedBytes

theorem Represents.balanced {a : MemoryAccount} {h : Holding} (r : a.Represents h) :
    a.Balanced where
  charged := by
    rw [r.charged, r.overhead, r.landed, r.credited, r.linksCharged, r.linksCredited]
    rfl
  credited_nonneg := by
    rw [r.credited]
    exact h.bodies.paidBack_nonneg
  credited_le := by
    rw [r.credited, r.landed]
    exact h.bodies.paidBack_le
  linksCredited_nonneg := by
    rw [r.linksCredited]
    exact h.links.paidBack_nonneg
  linksCredited_le := by
    rw [r.linksCredited, r.linksCharged]
    exact h.links.paidBack_le
  overhead_kept := by
    rw [r.overhead, r.charged]
    exact h.overhead_le_held

/-- The running totals of an account only grow. -/
structure GrowsTo (a a' : MemoryAccount) : Prop where
  landed : a.landedBodyBytes ≤ a'.landedBodyBytes
  overhead : a.overheadBytes ≤ a'.overheadBytes
  linksCharged : a.linksChargedBytes ≤ a'.linksChargedBytes
  pages : a.pages ≤ a'.pages

theorem GrowsTo.refl (a : MemoryAccount) : a.GrowsTo a :=
  ⟨le_refl _, le_refl _, le_refl _, le_refl _⟩

theorem GrowsTo.trans {a b c : MemoryAccount} (h : a.GrowsTo b) (k : b.GrowsTo c) : a.GrowsTo c :=
  ⟨h.landed.trans k.landed, h.overhead.trans k.overhead,
    h.linksCharged.trans k.linksCharged, h.pages.trans k.pages⟩

end MemoryAccount

namespace MemoryBudget

/-- Every account represents a holding. -/
def Accounted (b : MemoryBudget) : Prop :=
  b.Indexed ∧ Every (fun _ a => ∃ h, a.Represents h) b

theorem Accounted.init {budgetBytes fairShareSlots : Int} {b : MemoryBudget}
    (start : init budgetBytes fairShareSlots = .ok b) : b.Accounted := by
  unfold MemoryBudget.init at start
  split at start
  · cases start
  · cases start
    exact ⟨fun i a ha => by simp at ha, fun i a ha => by simp at ha⟩

theorem Charges.represents {op s f} (move : Charges op s f) {a : MemoryAccount}
    (represented : ∃ h, a.Represents h) : ∃ h, (f a).Represents h := by
  obtain ⟨h, r⟩ := represented
  cases move with
  | charge hn ho => exact ⟨_, r.landPage hn ho⟩
  | chargeLinks hn => exact ⟨_, r.holdLinks hn⟩

theorem Credits.represents {op s f} (move : Credits op s f) {a : MemoryAccount}
    (represented : ∃ h, a.Represents h) : ∃ h, (f a).Represents h := by
  obtain ⟨h, r⟩ := represented
  cases move with
  | credit hn => exact ⟨_, r.releaseBody hn⟩
  | creditLinks hn => exact ⟨_, r.releaseLinks hn⟩

variable {b b' : MemoryBudget} {op : BudgetCall}

theorem Accounted.step (h : b.Accounted)
    (hstep : machine.step b op = some b') : b'.Accounted := by
  obtain ⟨reply, hcall⟩ := step_eq_some.mp hstep
  refine ⟨h.1.call hcall, ?_⟩
  apply Every.call h.1 _ _ _ _ h.2 hcall
  · exact fun id s ceiling => ⟨.empty, .new id s ceiling⟩
  · rintro i a ⟨h, r⟩
    exact ⟨h, r.requestStop⟩
  · exact fun move i a represented => move.represents represented
  · exact fun move i a represented => move.represents represented

theorem Charges.growsTo {op s f} (move : Charges op s f) (a : MemoryAccount) : a.GrowsTo (f a) := by
  cases move with
  | charge hn ho =>
    constructor
    all_goals simp only [MemoryAccount.landPage]
    all_goals omega
  | chargeLinks hn =>
    constructor
    all_goals simp only [MemoryAccount.holdLinks]
    all_goals omega

theorem Credits.growsTo {op s f} (move : Credits op s f) (a : MemoryAccount) : a.GrowsTo (f a) := by
  cases move <;> exact ⟨le_refl _, le_refl _, le_refl _, le_refl _⟩

theorem growsTo_step (h : b.Indexed)
    (hstep : machine.step b op = some b') : Evolves MemoryAccount.GrowsTo b b' := by
  obtain ⟨reply, hcall⟩ := step_eq_some.mp hstep
  exact evolves_call h MemoryAccount.GrowsTo.refl (fun _ _ _ => .trans)
    (fun _ => ⟨le_refl _, le_refl _, le_refl _, le_refl _⟩) Charges.growsTo Credits.growsTo hcall

theorem call_raised {e : ValueError}
    (h : b.Indexed) (hcall : b.call op = some (.error e, b')) : b' = b := by
  cases call_cases h hcall
  rfl

/-- Whatever calls a budget takes, on open and on closed accounts alike: every
account is balanced in every state, its totals never decrease, and a call that
raises changes nothing. -/
theorem accounting_stays_consistent {budgetBytes fairShareSlots : Int} {b₀ : MemoryBudget}
    (start : init budgetBytes fairShareSlots = .ok b₀) (calls : List BudgetCall) :
    machine.Always (Every fun _ a => a.Balanced) b₀ calls ∧
      machine.Relates (Evolves MemoryAccount.GrowsTo) b₀ calls ∧
      machine.Always (fun b => ∀ op e b', b.call op = some (.error e, b') → b' = b) b₀ calls := by
  have accounted : b₀.Accounted := .init start
  have keep : ∀ b op b', Accounted b → machine.step b op = some b' → Accounted b' :=
    fun b op b' => Accounted.step
  refine ⟨?_, ?_, ?_⟩
  · refine Machine.always_of_invariant keep accounted fun b represented i a ha => ?_
    obtain ⟨h, r⟩ := represented.2 i a ha
    exact r.balanced
  · exact Machine.relates_of_invariant
      (Evolves.refl MemoryAccount.GrowsTo.refl)
      (fun {a b c} => Evolves.trans (fun _ _ _ => .trans)) keep
      (fun b op b' h => growsTo_step h.1) accounted
  · refine Machine.always_of_invariant keep accounted fun b h op e b' hcall => ?_
    exact call_raised h.1 hcall

/-- Two crawls, an over-credit, a charge after closing and a refused charge. -/
theorem accounting_on_two_crawls : machine.Always (Every fun _ a => a.Balanced)
        ⟨100, 50, [], [], false⟩
        [.open "a" 2, .open "b" 1, .charge 0 40 8, .credit 0 90, .close 0, .charge 0 30 8,
          .chargeLinks 1 7, .creditLinks 1 9, .charge 1 (-1) 0] ∧
      (machine.run ⟨100, 50, [], [], false⟩
        [.open "a" 2, .open "b" 1, .charge 0 40 8, .credit 0 90, .close 0, .charge 0 30 8,
          .chargeLinks 1 7, .creditLinks 1 9, .charge 1 (-1) 0]).isSome :=
  ⟨(@accounting_stays_consistent 100 2 ⟨100, 50, [], [], false⟩ rfl _).1, by decide⟩

end MemoryBudget

end Rankuno

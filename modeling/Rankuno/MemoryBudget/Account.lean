import Mathlib.Algebra.Order.Group.Int
import Mathlib.Data.Int.Order.Basic
import Rankuno.Foundation.ClampedPool

/-!
# One crawl's memory account

The counters of `MemoryAccount` in `core/memory_budget.py` and the four updates
the budget makes to them under its lock. `Holding` says what the counters are
for: an overhead that is never returned and two pools, one of bodies and one of
links, whose returns are clamped.
-/

namespace Rankuno

/-- The counters one crawl charges. `accountId` is the job id and `sequence`
the start order that breaks ties between victims. -/
structure MemoryAccount where
  accountId : String
  sequence : Nat
  inFlightCeiling : Int
  chargedBytes : Int
  pages : Nat
  landedBodyBytes : Int
  creditedBodyBytes : Int
  overheadBytes : Int
  linksChargedBytes : Int
  linksCreditedBytes : Int
  stopRequested : Bool
  deriving DecidableEq

namespace MemoryAccount

/-- `MemoryAccount.__init__`: every counter starts at zero, and the ceiling is
at least one. -/
def new (accountId : String) (sequence : Nat) (inFlightCeiling : Int) : MemoryAccount where
  accountId := accountId
  sequence := sequence
  inFlightCeiling := max 1 inFlightCeiling
  chargedBytes := 0
  pages := 0
  landedBodyBytes := 0
  creditedBodyBytes := 0
  overheadBytes := 0
  linksChargedBytes := 0
  linksCreditedBytes := 0
  stopRequested := false

/-- Charged bytes plus a reserve, at the mean page size, for every body that
may be in flight. -/
def projectedBytes (a : MemoryAccount) : Int :=
  let mean := if a.pages = 0 then 0 else a.landedBodyBytes / (a.pages : Int)
  a.chargedBytes + a.inFlightCeiling * mean

def requestStop (a : MemoryAccount) : MemoryAccount :=
  { a with stopRequested := true }

/-- The counter updates of `MemoryBudget.charge`: one page landed. -/
def landPage (nbytes overheadBytes : Int) (a : MemoryAccount) : MemoryAccount :=
  { a with
    chargedBytes := a.chargedBytes + (nbytes + overheadBytes)
    landedBodyBytes := a.landedBodyBytes + nbytes
    overheadBytes := a.overheadBytes + overheadBytes
    pages := a.pages + 1 }

/-- The counter updates of `MemoryBudget.charge_links`. -/
def holdLinks (nbytes : Int) (a : MemoryAccount) : MemoryAccount :=
  { a with
    chargedBytes := a.chargedBytes + nbytes
    linksChargedBytes := a.linksChargedBytes + nbytes }

def outstandingBodyBytes (a : MemoryAccount) : Int :=
  a.landedBodyBytes - a.creditedBodyBytes

def outstandingLinkBytes (a : MemoryAccount) : Int :=
  a.linksChargedBytes - a.linksCreditedBytes

/-- The counter updates of `MemoryBudget.credit`, clamped to the outstanding
body bytes. -/
def releaseBody (nbytes : Int) (a : MemoryAccount) : MemoryAccount :=
  let applied := min nbytes a.outstandingBodyBytes
  { a with
    creditedBodyBytes := a.creditedBodyBytes + applied
    chargedBytes := a.chargedBytes - applied }

/-- The counter updates of `MemoryBudget.credit_links`, clamped to the
outstanding link bytes. -/
def releaseLinks (nbytes : Int) (a : MemoryAccount) : MemoryAccount :=
  let applied := min nbytes a.outstandingLinkBytes
  { a with
    linksCreditedBytes := a.linksCreditedBytes + applied
    chargedBytes := a.chargedBytes - applied }

section Fields

variable (a : MemoryAccount) (n o : Int)

@[simp] theorem new_sequence (id : String) (s : Nat) : (new id s n).sequence = s := rfl

@[simp] theorem new_stopRequested (id : String) (s : Nat) :
    (new id s n).stopRequested = false := rfl

@[simp] theorem requestStop_sequence : a.requestStop.sequence = a.sequence := rfl
@[simp] theorem requestStop_pages : a.requestStop.pages = a.pages := rfl
@[simp] theorem requestStop_stopRequested : a.requestStop.stopRequested = true := rfl

@[simp] theorem requestStop_projectedBytes : a.requestStop.projectedBytes = a.projectedBytes := rfl

@[simp] theorem landPage_sequence : (a.landPage n o).sequence = a.sequence := rfl
@[simp] theorem landPage_stopRequested : (a.landPage n o).stopRequested = a.stopRequested := rfl

@[simp] theorem holdLinks_sequence : (a.holdLinks n).sequence = a.sequence := rfl
@[simp] theorem holdLinks_stopRequested : (a.holdLinks n).stopRequested = a.stopRequested := rfl

@[simp] theorem releaseBody_sequence : (a.releaseBody n).sequence = a.sequence := rfl
@[simp] theorem releaseBody_stopRequested : (a.releaseBody n).stopRequested = a.stopRequested := rfl

@[simp] theorem releaseLinks_sequence : (a.releaseLinks n).sequence = a.sequence := rfl
@[simp] theorem releaseLinks_stopRequested :
    (a.releaseLinks n).stopRequested = a.stopRequested := rfl

end Fields

end MemoryAccount

/-- What an account counts: overhead that is never returned, and two pools
whose returns are clamped. -/
structure Holding where
  overhead : Int
  bodies : ClampedPool Int
  links : ClampedPool Int
  overhead_nonneg : 0 ≤ overhead

namespace Holding

def empty : Holding := ⟨0, .empty, .empty, Int.le_refl 0⟩

def held (h : Holding) : Int := h.overhead + h.bodies.outstanding + h.links.outstanding

theorem overhead_le_held (h : Holding) : h.overhead ≤ h.held := by
  have hb := h.bodies.outstanding_nonneg
  have hl := h.links.outstanding_nonneg
  simp only [held]
  omega

def landPage (h : Holding) (nbytes overhead : Int) (hn : 0 ≤ nbytes) (ho : 0 ≤ overhead) :
    Holding :=
  { h with
    overhead := h.overhead + overhead
    bodies := h.bodies.payIn nbytes hn
    overhead_nonneg := Int.add_nonneg h.overhead_nonneg ho }

def holdLinks (h : Holding) (nbytes : Int) (hn : 0 ≤ nbytes) : Holding :=
  { h with links := h.links.payIn nbytes hn }

def releaseBody (h : Holding) (nbytes : Int) (hn : 0 ≤ nbytes) : Holding :=
  { h with bodies := h.bodies.payBack nbytes hn }

def releaseLinks (h : Holding) (nbytes : Int) (hn : 0 ≤ nbytes) : Holding :=
  { h with links := h.links.payBack nbytes hn }

end Holding

namespace MemoryAccount

/-- The counters of an account are those of a holding. -/
structure Represents (a : MemoryAccount) (h : Holding) : Prop where
  charged : a.chargedBytes = h.held
  overhead : a.overheadBytes = h.overhead
  landed : a.landedBodyBytes = h.bodies.paidIn
  credited : a.creditedBodyBytes = h.bodies.paidBack
  linksCharged : a.linksChargedBytes = h.links.paidIn
  linksCredited : a.linksCreditedBytes = h.links.paidBack

namespace Represents

variable {a : MemoryAccount} {h : Holding} {n o : Int}

theorem new (id : String) (s : Nat) (ceiling : Int) :
    (MemoryAccount.new id s ceiling).Represents .empty := by
  constructor <;> rfl

theorem outstandingBodyBytes (r : a.Represents h) :
    a.outstandingBodyBytes = h.bodies.outstanding := by
  simp only [MemoryAccount.outstandingBodyBytes, ClampedPool.outstanding, r.landed, r.credited]

theorem outstandingLinkBytes (r : a.Represents h) :
    a.outstandingLinkBytes = h.links.outstanding := by
  simp only [MemoryAccount.outstandingLinkBytes, ClampedPool.outstanding, r.linksCharged,
    r.linksCredited]

theorem requestStop (r : a.Represents h) : a.requestStop.Represents h :=
  ⟨r.charged, r.overhead, r.landed, r.credited, r.linksCharged, r.linksCredited⟩

theorem landPage (r : a.Represents h) (hn : 0 ≤ n) (ho : 0 ≤ o) :
    (a.landPage n o).Represents (h.landPage n o hn ho) where
  charged := by
    simp only [MemoryAccount.landPage, Holding.landPage, Holding.held, r.charged,
      ClampedPool.outstanding_payIn]
    omega
  overhead := by simp only [MemoryAccount.landPage, Holding.landPage, r.overhead]
  landed := by
    simp only [MemoryAccount.landPage, Holding.landPage, ClampedPool.payIn, r.landed]
  credited := r.credited
  linksCharged := r.linksCharged
  linksCredited := r.linksCredited

theorem holdLinks (r : a.Represents h) (hn : 0 ≤ n) :
    (a.holdLinks n).Represents (h.holdLinks n hn) where
  charged := by
    simp only [MemoryAccount.holdLinks, Holding.holdLinks, Holding.held, r.charged,
      ClampedPool.outstanding_payIn]
    omega
  overhead := r.overhead
  landed := r.landed
  credited := r.credited
  linksCharged := by
    simp only [MemoryAccount.holdLinks, Holding.holdLinks, ClampedPool.payIn, r.linksCharged]
  linksCredited := r.linksCredited

theorem releaseBody (r : a.Represents h) (hn : 0 ≤ n) :
    (a.releaseBody n).Represents (h.releaseBody n hn) where
  charged := by
    simp only [MemoryAccount.releaseBody, Holding.releaseBody, Holding.held, r.charged,
      ClampedPool.outstanding_payBack, r.outstandingBodyBytes]
    omega
  overhead := r.overhead
  landed := r.landed
  credited := by
    simp only [MemoryAccount.releaseBody, Holding.releaseBody, ClampedPool.payBack, r.credited,
      r.outstandingBodyBytes]
  linksCharged := r.linksCharged
  linksCredited := r.linksCredited

theorem releaseLinks (r : a.Represents h) (hn : 0 ≤ n) :
    (a.releaseLinks n).Represents (h.releaseLinks n hn) where
  charged := by
    simp only [MemoryAccount.releaseLinks, Holding.releaseLinks, Holding.held, r.charged,
      ClampedPool.outstanding_payBack, r.outstandingLinkBytes]
    omega
  overhead := r.overhead
  landed := r.landed
  credited := r.credited
  linksCharged := r.linksCharged
  linksCredited := by
    simp only [MemoryAccount.releaseLinks, Holding.releaseLinks, ClampedPool.payBack,
      r.linksCredited, r.outstandingLinkBytes]

end Represents

end MemoryAccount

end Rankuno

import Mathlib.Data.List.Induction
import Rankuno.Foundation.Table
import Rankuno.Python.Values

/-!
# Preview tokens

A preview mints a token for the crawl it shows, and the confirmation spends it.
The store is swept whenever a token is minted, and a look at an expired entry
drops it. Every call holds the lock, so a list of calls is an interleaving, and
each call carries the clock readings it takes. The clock is the wall clock, and
nothing makes a later reading the larger one.

Calls that find a token expired leave the store with fewer entries than it would
have had. `LosesExpired` says how two such stores differ; it survives every call,
and no call that reads the clock from then on tells the two apart.
-/

namespace Rankuno

/-- What a token is bound to. -/
structure PreviewTarget where
  orgId : String
  seedUrl : String
  templateName : Option String
  deriving DecidableEq

structure PreviewToken extends PreviewTarget where
  token : String
  expiresAt : Timestamp
  deriving DecidableEq

structure PreviewTokenStore where
  ttl : Int
  tokens : Table String PreviewToken.token := .empty
  deriving DecidableEq

/-- A call with its arguments, and the clock readings it takes. A token is
random text, here chosen by whoever makes the list. -/
inductive PreviewCall where
  | mint (token : String) (target : PreviewTarget) (created pruned : Timestamp)
  | peek (token : String) (target : PreviewTarget) (now : Timestamp)
  | consume (token : String) (target : PreviewTarget) (now : Timestamp)
  deriving DecidableEq

namespace PreviewCall

/-- The reading a call compares expiry times with. -/
def clock : PreviewCall → Timestamp
  | mint _ _ _ pruned => pruned
  | peek _ _ now => now
  | consume _ _ now => now

def mints (token : String) : PreviewCall → Bool
  | mint minted .. => minted = token
  | _ => false

end PreviewCall

namespace PreviewTokenStore

def get (s : PreviewTokenStore) (token : String) : Option PreviewToken := s.tokens.find? token

/-- `del self._tokens[token]`. -/
def drop (s : PreviewTokenStore) (token : String) : PreviewTokenStore :=
  { s with tokens := s.tokens.delete fun record => record.token = token }

/-- `_prune_expired`. -/
def pruneExpired (s : PreviewTokenStore) (now : Timestamp) : PreviewTokenStore :=
  { s with tokens := s.tokens.delete fun record => record.expiresAt ≤ now }

/-- `_is_valid`: the store after it, and its answer. -/
def isValid (s : PreviewTokenStore) (token : String) (target : PreviewTarget) (now : Timestamp) :
    PreviewTokenStore × Bool :=
  match s.get token with
  | none => (s, false)
  | some record =>
    if record.expiresAt ≤ now then (s.drop token, false)
    else (s, decide (record.toPreviewTarget = target))

def mint (s : PreviewTokenStore) (token : String) (target : PreviewTarget)
    (created pruned : Timestamp) : PreviewTokenStore × PreviewToken :=
  let record : PreviewToken := { target with token, expiresAt := created + s.ttl }
  let s := s.pruneExpired pruned
  ({ s with tokens := s.tokens.put record }, record)

def peek (s : PreviewTokenStore) (token : String) (target : PreviewTarget) (now : Timestamp) :
    PreviewTokenStore × Bool :=
  s.isValid token target now

def consume (s : PreviewTokenStore) (token : String) (target : PreviewTarget) (now : Timestamp) :
    PreviewTokenStore × Bool :=
  let (s, valid) := s.isValid token target now
  if valid then (s.drop token, true) else (s, false)

/-- The store after a call. -/
def next (s : PreviewTokenStore) : PreviewCall → PreviewTokenStore
  | .mint token target created pruned => (s.mint token target created pruned).1
  | .peek token target now => (s.peek token target now).1
  | .consume token target now => (s.consume token target now).1

/-- What a call returns. -/
def answer (s : PreviewTokenStore) : PreviewCall → PreviewToken ⊕ Bool
  | .mint token target created pruned => .inl (s.mint token target created pruned).2
  | .peek token target now => .inr (s.peek token target now).2
  | .consume token target now => .inr (s.consume token target now).2

def after (s : PreviewTokenStore) (calls : List PreviewCall) : PreviewTokenStore :=
  calls.foldl next s

section Lookups

variable {s : PreviewTokenStore} {token k : String} {target : PreviewTarget}
variable {now created pruned : Timestamp} {record : PreviewToken}

theorem get_drop : (s.drop token).get k = if k = token then none else s.get k := by
  split
  · next same =>
    subst same
    exact Table.find?_delete_self
  · next other => exact Table.find?_delete_of_ne other

theorem get_pruneExpired :
    (s.pruneExpired now).get k = (s.get k).filter fun record => !decide (record.expiresAt ≤ now) :=
  Table.find?_delete

theorem isValid_snd : (s.isValid token target now).2 = true ↔
    ∃ record, s.get token = some record ∧ now < record.expiresAt ∧
      record.toPreviewTarget = target := by
  rw [isValid]
  cases found : s.get token with
  | none => simp
  | some record =>
    dsimp only
    split
    · next expired => simp [Int.not_lt.mpr expired]
    · next alive => simp [Int.not_le.mp alive]

theorem get_isValid : (s.isValid token target now).1.get k =
    (s.get k).filter fun record => !(decide (k = token) && decide (record.expiresAt ≤ now)) := by
  rw [isValid]
  by_cases same : k = token
  · subst same
    cases found : s.get k with
    | none => simp [found]
    | some record =>
      dsimp only
      split
      · next expired => simp [get_drop, Option.filter_some, expired]
      · next alive => simp [found, Option.filter_some, alive]
  · have other : (s.get k).filter (fun record => !(decide (k = token) &&
        decide (record.expiresAt ≤ now))) = s.get k := by
      cases s.get k <;> simp [same]
    rw [other]
    split
    · rfl
    · split
      · rw [get_drop, if_neg same]
      · rfl

theorem consume_snd : (s.consume token target now).2 = (s.isValid token target now).2 := by
  rw [consume]
  dsimp only
  split
  · next valid => exact valid.symm
  · next refused => exact (Bool.eq_false_iff.mpr refused).symm

theorem consume_fst : (s.consume token target now).1 =
    if (s.isValid token target now).2 then (s.isValid token target now).1.drop token
    else (s.isValid token target now).1 := by
  rw [consume]
  dsimp only
  split <;> rfl

theorem get_mint : (s.mint token target created pruned).1.get k =
    if token = k then some { target with token, expiresAt := created + s.ttl }
    else (s.get k).filter fun record => !decide (record.expiresAt ≤ pruned) := by
  rw [← get_pruneExpired]
  exact Table.find?_put

theorem ttl_isValid : (s.isValid token target now).1.ttl = s.ttl := by
  rw [isValid]
  split
  · rfl
  · split <;> rfl

theorem ttl_next {call : PreviewCall} : (s.next call).ttl = s.ttl := by
  cases call with
  | mint token target created pruned => rfl
  | peek token target now => exact ttl_isValid
  | consume token target now =>
    rw [next, consume_fst]
    split
    · exact ttl_isValid
    · exact ttl_isValid

theorem after_append (calls : List PreviewCall) (call : PreviewCall) :
    s.after (calls ++ [call]) = (s.after calls).next call := by
  rw [after, List.foldl_append]
  rfl

theorem ttl_after (calls : List PreviewCall) : (s.after calls).ttl = s.ttl := by
  induction calls generalizing s with
  | nil => rfl
  | cons call calls ih => exact ih.trans ttl_next

end Lookups

section Expiry

/-- The second store lacks some entries of the first, all of them expired at `t`. -/
structure LosesExpired (t : Timestamp) (s s' : PreviewTokenStore) : Prop where
  ttl : s'.ttl = s.ttl
  get : ∀ k, s'.get k = s.get k ∨
    s'.get k = none ∧ ∀ record, s.get k = some record → record.expiresAt ≤ t

namespace LosesExpired

variable {t now : Timestamp} {s s' : PreviewTokenStore} {token : String} {target : PreviewTarget}

theorem isValid_snd (h : LosesExpired t s s') (later : t ≤ now) :
    (s'.isValid token target now).2 = (s.isValid token target now).2 := by
  rw [Bool.eq_iff_iff, PreviewTokenStore.isValid_snd, PreviewTokenStore.isValid_snd]
  obtain same | ⟨missing, expired⟩ := h.get token
  · rw [same]
  · rw [missing]
    constructor
    · rintro ⟨record, found, -⟩
      cases found
    · rintro ⟨record, found, alive, -⟩
      exact absurd (Int.le_trans (expired record found) later) (Int.not_le.mpr alive)

theorem filter {r r' : PreviewTokenStore} (h : LosesExpired t s s') (ttl : r'.ttl = r.ttl)
    {keep : String → PreviewToken → Bool} (get : ∀ k, r.get k = (s.get k).filter (keep k))
    (get' : ∀ k, r'.get k = (s'.get k).filter (keep k)) : LosesExpired t r r' where
  ttl := ttl
  get := by
    intro k
    rw [get, get']
    obtain same | ⟨missing, expired⟩ := h.get k
    · rw [same]
      exact Or.inl rfl
    · rw [missing]
      refine Or.inr ⟨rfl, fun record found => expired record ?_⟩
      exact (Option.filter_eq_some_iff.mp found).1

theorem drop (h : LosesExpired t s s') : LosesExpired t (s.drop token) (s'.drop token) where
  ttl := h.ttl
  get := by
    intro k
    rw [get_drop, get_drop]
    split
    · exact Or.inl rfl
    · exact h.get k

theorem drop_left (h : LosesExpired t s s') (missing : s'.get token = none) :
    LosesExpired t (s.drop token) s' where
  ttl := h.ttl
  get := by
    intro k
    rw [get_drop]
    split
    · next same =>
      subst same
      exact Or.inl missing
    · exact h.get k

theorem isValid (h : LosesExpired t s s') :
    LosesExpired t (s.isValid token target now).1 (s'.isValid token target now).1 :=
  h.filter (ttl_isValid.trans (h.ttl.trans ttl_isValid.symm))
    (fun _ => get_isValid) (fun _ => get_isValid)

theorem consume (h : LosesExpired t s s') :
    LosesExpired t (s.consume token target now).1 (s'.consume token target now).1 := by
  rw [consume_fst, consume_fst]
  have looked : LosesExpired t (s.isValid token target now).1 (s'.isValid token target now).1 :=
    h.isValid
  obtain same | ⟨missing, -⟩ := h.get token
  · have agree : (s'.isValid token target now).2 = (s.isValid token target now).2 := by
      rw [Bool.eq_iff_iff, PreviewTokenStore.isValid_snd, PreviewTokenStore.isValid_snd, same]
    rw [agree]
    split
    · exact looked.drop
    · exact looked
  · have refused : (s'.isValid token target now).2 = false := by
      rw [Bool.eq_false_iff, Ne, PreviewTokenStore.isValid_snd]
      rintro ⟨record, found, -⟩
      rw [missing] at found
      cases found
    rw [refused, if_neg Bool.false_ne_true]
    split
    · refine looked.drop_left ?_
      rw [get_isValid, missing, Option.filter_none]
    · exact looked

theorem mint {created pruned : Timestamp} (h : LosesExpired t s s') :
    LosesExpired t (s.mint token target created pruned).1
      (s'.mint token target created pruned).1 where
  ttl := h.ttl
  get := by
    intro k
    rw [get_mint, get_mint, h.ttl]
    split
    · exact Or.inl rfl
    · have pruned : LosesExpired t (s.pruneExpired pruned) (s'.pruneExpired pruned) :=
        h.filter h.ttl (fun _ => get_pruneExpired) (fun _ => get_pruneExpired)
      rw [← get_pruneExpired, ← get_pruneExpired]
      exact pruned.get k

theorem next (h : LosesExpired t s s') (call : PreviewCall) :
    LosesExpired t (s.next call) (s'.next call) := by
  cases call with
  | mint token target created pruned => exact h.mint
  | peek token target now => exact h.isValid
  | consume token target now => exact h.consume

theorem after (h : LosesExpired t s s') (calls : List PreviewCall) :
    LosesExpired t (s.after calls) (s'.after calls) := by
  induction calls generalizing s s' with
  | nil => exact h
  | cons call calls ih => exact ih (h.next call)

end LosesExpired

theorem losesExpired_isValid (s : PreviewTokenStore) (token : String) (target : PreviewTarget)
    (now : Timestamp) : LosesExpired now s (s.isValid token target now).1 where
  ttl := ttl_isValid
  get := by
    intro k
    rw [get_isValid]
    cases found : s.get k with
    | none => exact Or.inl rfl
    | some record =>
      rw [Option.filter_some]
      split
      · exact Or.inl rfl
      · next gone =>
        refine Or.inr ⟨rfl, ?_⟩
        intro _ same
        cases same
        simp only [Bool.not_eq_true', Bool.not_eq_false, Bool.and_eq_true,
          decide_eq_true_eq] at gone
        exact gone.2

end Expiry

section Runs

variable {s s' : PreviewTokenStore} {token k : String} {target : PreviewTarget}
variable {t now : Timestamp} {record : PreviewToken} {call : PreviewCall}

theorem LosesExpired.answer (h : LosesExpired t s s') (later : t ≤ call.clock) :
    s'.answer call = s.answer call := by
  cases call with
  | mint token target created pruned =>
    simp only [PreviewTokenStore.answer, PreviewTokenStore.mint, h.ttl]
  | peek token target now =>
    exact congrArg Sum.inr (h.isValid_snd later)
  | consume token target now =>
    simp only [PreviewTokenStore.answer, consume_snd]
    exact congrArg Sum.inr (h.isValid_snd later)

theorem consume_of_refused (refused : (s.consume token target now).2 = false) :
    (s.consume token target now).1 = (s.peek token target now).1 := by
  rw [consume_snd] at refused
  rw [consume_fst, refused, if_neg Bool.false_ne_true]
  rfl

/-- The call answers yes, and so spends the token. -/
def grants (s : PreviewTokenStore) (token : String) : PreviewCall → Bool
  | .consume spent target now => spent = token && (s.consume spent target now).2
  | _ => false

/-- How often the calls answer yes for the token. -/
def granted (token : String) : PreviewTokenStore → List PreviewCall → Nat
  | _, [] => 0
  | s, call :: calls => (s.grants token call).toNat + granted token (s.next call) calls

/-- How often the token comes out of a mint. -/
def minted (token : String) (calls : List PreviewCall) : Nat :=
  calls.countP (PreviewCall.mints token)

theorem get_next (h : (s.next call).get token = some record) :
    s.get token = some record ∧ s.grants token call = false ∧ call.mints token = false ∨
      ∃ created pruned, call = .mint token record.toPreviewTarget created pruned ∧
        record.expiresAt = created + s.ttl := by
  cases call with
  | mint made target created pruned =>
    rw [next, get_mint] at h
    split at h
    · next same =>
      subst same
      cases h
      exact Or.inr ⟨created, pruned, rfl, rfl⟩
    · next other =>
      exact Or.inl ⟨(Option.filter_eq_some_iff.mp h).1, rfl, decide_eq_false other⟩
  | peek looked target now =>
    rw [next, peek, get_isValid] at h
    exact Or.inl ⟨(Option.filter_eq_some_iff.mp h).1, rfl, rfl⟩
  | consume spent target now =>
    rw [next, consume_fst] at h
    have kept : (s.isValid spent target now).1.get token = some record ∧
        (spent = token → (s.isValid spent target now).2 = false) := by
      split at h
      · rw [get_drop] at h
        split at h
        · cases h
        · next other => exact ⟨h, fun same => absurd same.symm other⟩
      · next refused => exact ⟨h, fun _ => Bool.eq_false_iff.mpr refused⟩
    rw [get_isValid] at kept
    refine Or.inl ⟨(Option.filter_eq_some_iff.mp kept.1).1, ?_, rfl⟩
    rw [grants, consume_snd, Bool.and_eq_false_iff, decide_eq_false_iff_not]
    exact not_or_of_imp kept.2

theorem get_next_of_get (h : s.get token = some record) :
    (s.next call).get token = some record ∨ s.grants token call = true ∨
      call.mints token = true ∨ record.expiresAt ≤ call.clock := by
  cases call with
  | mint made target created pruned =>
    rw [next, get_mint, h]
    by_cases same : made = token
    · exact Or.inr (Or.inr (Or.inl (decide_eq_true same)))
    · rw [if_neg same, Option.filter_some]
      by_cases expired : record.expiresAt ≤ pruned
      · exact Or.inr (Or.inr (Or.inr expired))
      · exact Or.inl (by simp [expired])
  | peek looked target now =>
    rw [next, peek, get_isValid, h, Option.filter_some]
    by_cases expired : record.expiresAt ≤ now
    · exact Or.inr (Or.inr (Or.inr expired))
    · exact Or.inl (by simp [expired])
  | consume spent target now =>
    by_cases expired : record.expiresAt ≤ now
    · exact Or.inr (Or.inr (Or.inr expired))
    · have kept : (s.isValid spent target now).1.get token = some record := by
        simp [get_isValid, h, expired]
      rw [next, consume_fst, grants, consume_snd]
      by_cases valid : (s.isValid spent target now).2 = true
      · rw [if_pos valid, get_drop, valid, Bool.and_true, decide_eq_true_eq]
        by_cases same : spent = token
        · exact Or.inr (Or.inl same)
        · exact Or.inl (by rwa [if_neg (Ne.symm same)])
      · rw [if_neg valid]
        exact Or.inl kept

theorem get_of_grants (h : s.grants token call = true) :
    (s.get token).isSome ∧ (s.next call).get token = none := by
  cases call with
  | mint made target created pruned => cases h
  | peek looked target now => cases h
  | consume spent target now =>
    rw [grants, consume_snd, Bool.and_eq_true, decide_eq_true_eq] at h
    obtain ⟨rfl, valid⟩ := h
    obtain ⟨record, found, -⟩ := isValid_snd.mp valid
    refine ⟨Option.isSome_of_eq_some found, ?_⟩
    rw [next, consume_fst, if_pos valid, get_drop, if_pos rfl]

theorem granted_le (calls : List PreviewCall) :
    granted token s calls ≤ minted token calls + (s.get token).isSome.toNat := by
  induction calls generalizing s with
  | nil => exact Nat.zero_le _
  | cons call calls ih =>
    have rest := ih (s := s.next call)
    rw [granted, minted, List.countP_cons, ← minted]
    cases grants : s.grants token call with
    | true =>
      obtain ⟨there, gone⟩ := get_of_grants grants
      rw [gone] at rest
      rw [there]
      simp only [Option.isSome_none, Bool.toNat_false, Bool.toNat_true] at rest ⊢
      omega
    | false =>
      have entry : ((s.next call).get token).isSome.toNat ≤
          (if call.mints token = true then 1 else 0) + (s.get token).isSome.toNat := by
        cases found : (s.next call).get token with
        | none => exact Nat.zero_le _
        | some record =>
          obtain ⟨before, -, -⟩ | ⟨created, pruned, rfl, -⟩ := get_next found
          · rw [before]
            exact Nat.le_add_left _ _
          · simp [PreviewCall.mints]
      simp only [Bool.toNat_false]
      omega

theorem mint_of_get {ttl : Int} {calls : List PreviewCall}
    (h : ((⟨ttl, .empty⟩ : PreviewTokenStore).after calls).get token = some record) :
    ∃ earlier created pruned since,
      calls = earlier ++ .mint token record.toPreviewTarget created pruned :: since ∧
        record.expiresAt = created + ttl ∧ ∀ call ∈ since, call.mints token = false := by
  induction calls using List.reverseRecOn with
  | nil => cases h
  | append_singleton calls call ih =>
    rw [after_append] at h
    obtain ⟨before, -, unminted⟩ | ⟨created, pruned, rfl, expires⟩ := get_next h
    · obtain ⟨earlier, created, pruned, since, rfl, expires, unminted'⟩ := ih before
      refine ⟨earlier, created, pruned, since ++ [call], by simp, expires, ?_⟩
      intro other mem
      obtain mem | mem := List.mem_append.mp mem
      · exact unminted' other mem
      · rwa [List.mem_singleton.mp mem]
    · exact ⟨calls, created, pruned, [], rfl, expires.trans (by rw [ttl_after calls]), by simp⟩

end Runs

/-- **A preview token is spent once, on the crawl it was shown for.** Over any
calls, each mint of a token allows one yes, given before it expires and for what
it was minted for. A look at a token, or an attempt with something else than its
target, changes the answer of no later call that reads the clock no earlier. And
an entry is dropped only once it has expired, is spent or is replaced. -/
theorem spent_once_as_shown (ttl : Int) (calls : List PreviewCall) (token : String) :
    let s := (⟨ttl, .empty⟩ : PreviewTokenStore).after calls
    granted token ⟨ttl, .empty⟩ calls ≤ minted token calls ∧
      (∀ target now, (s.consume token target now).2 = true → ∃ earlier created pruned since,
          calls = earlier ++ .mint token target created pruned :: since ∧
            now < created + ttl ∧ ∀ call ∈ since, call.mints token = false) ∧
      (∀ target now later call, now ≤ call.clock →
        ((s.peek token target now).1.after later).answer call = (s.after later).answer call) ∧
      (∀ target now, (∀ record, s.get token = some record → record.toPreviewTarget ≠ target) →
        (s.consume token target now).2 = false ∧ ∀ later call, now ≤ call.clock →
            ((s.consume token target now).1.after later).answer call =
              (s.after later).answer call) ∧
      ∀ call record, s.get token = some record → (s.next call).get token = some record ∨
        s.grants token call = true ∨ call.mints token = true ∨ record.expiresAt ≤ call.clock := by
  intro s
  have looked : ∀ target now later call, now ≤ call.clock →
      ((s.peek token target now).1.after later).answer call = (s.after later).answer call := by
    intro target now later call clock
    exact ((losesExpired_isValid s token target now).after later).answer clock
  refine ⟨granted_le calls, fun target now granted => ?_, looked, fun target now wrong => ?_,
    fun call record found => get_next_of_get found⟩
  · rw [consume_snd] at granted
    obtain ⟨record, found, alive, rfl⟩ := isValid_snd.mp granted
    obtain ⟨earlier, created, pruned, since, split, expires, unminted⟩ := mint_of_get found
    exact ⟨earlier, created, pruned, since, split, expires ▸ alive, unminted⟩
  · have refused : (s.consume token target now).2 = false := by
      rw [consume_snd, Bool.eq_false_iff, Ne, isValid_snd]
      rintro ⟨record, found, -, same⟩
      exact wrong record found same
    refine ⟨refused, fun later call clock => ?_⟩
    rw [consume_of_refused refused]
    exact looked target now later call clock

/-- The clock passes the expiry of a token, and is then set back. A look, or an
attempt with another target, has dropped the token meanwhile. -/
theorem dropped_while_expired : ¬(∀ (ttl : Int) calls token target now later call,
        let s := (⟨ttl, .empty⟩ : PreviewTokenStore).after calls
        ((s.peek token target now).1.after later).answer call = (s.after later).answer call) ∧
      ¬(∀ (ttl : Int) calls token target now later call,
        let s := (⟨ttl, .empty⟩ : PreviewTokenStore).after calls
        (∀ record, s.get token = some record → record.toPreviewTarget ≠ target) →
          ((s.consume token target now).1.after later).answer call =
            (s.after later).answer call) := by
  constructor
  · intro same
    exact absurd (same 120 [.mint "t" ⟨"org", "https://a.com/", none⟩ 0 0] "t"
      ⟨"org", "https://a.com/", none⟩ 130 [] (.consume "t" ⟨"org", "https://a.com/", none⟩ 10))
      (by decide)
  · intro same
    refine absurd (same 120 [.mint "t" ⟨"org", "https://a.com/", none⟩ 0 0] "t"
      ⟨"org", "https://b.com/", none⟩ 130 [] (.consume "t" ⟨"org", "https://a.com/", none⟩ 10)
      ?_) (by decide)
    intro record found
    cases found
    decide

end PreviewTokenStore

end Rankuno

import Mathlib.Logic.Basic

/-!
# Programs with a state and exceptions

An `Effect` runs from a state to a result or an exception, and to the state it left
behind in either case: what was done before an exception stays done. `Ensures` is
the weakest precondition of such a program, with one rule for each way to build one.
-/

namespace Rankuno

/-- A program over a state, that may raise. -/
def Effect (σ ε α : Type) : Type := σ → Except ε α × σ

namespace Effect

variable {σ ε α β : Type}

instance : Monad (Effect σ ε) where
  pure a s := (.ok a, s)
  bind m f s :=
    match m s with
    | (.ok a, s') => f a s'
    | (.error e, s') => (.error e, s')

theorem bind_pure (m : Effect σ ε α) : m >>= pure = m := by
  funext s
  change (match m s with
    | (.ok a, s') => (.ok a, s')
    | (.error e, s') => (.error e, s')) = m s
  rcases m s with ⟨result, t⟩
  cases result with
  | ok a => rfl
  | error e => rfl

theorem bind_assoc {γ : Type} (m : Effect σ ε α) (f : α → Effect σ ε β) (g : β → Effect σ ε γ) :
    m >>= f >>= g = m >>= fun a => f a >>= g := by
  funext s
  change (match (match m s with
    | (.ok a, s') => f a s'
    | (.error e, s') => (.error e, s')) with
    | (.ok b, s') => g b s'
    | (.error e, s') => (.error e, s')) = match m s with
    | (.ok a, s') => (f a >>= g) s'
    | (.error e, s') => (.error e, s')
  rcases m s with ⟨result, t⟩
  cases result with
  | ok a => rfl
  | error e => rfl

def raise (e : ε) : Effect σ ε α := fun s => (.error e, s)

def read (f : σ → α) : Effect σ ε α := fun s => (.ok (f s), s)

def update (f : σ → σ) : Effect σ ε Unit := fun s => (.ok (), f s)

/-- A call without a state. -/
def lift (x : Except ε α) : Effect σ ε α := fun s => (x, s)

/-- `try`: the handler answers the exceptions it expects. -/
def catching (m : Effect σ ε α) (handler : ε → Option α) : Effect σ ε α := fun s =>
  match m s with
  | (.ok a, s') => (.ok a, s')
  | (.error e, s') =>
    match handler e with
    | some a => (.ok a, s')
    | none => (.error e, s')

/-- `try` with a handler that runs from where the exception left off. -/
def rescue (m : Effect σ ε α) (handler : ε → Effect σ ε α) : Effect σ ε α := fun s =>
  match m s with
  | (.ok a, s') => (.ok a, s')
  | (.error e, s') => handler e s'

/-- `finally`: the closing runs in either case, and what it raises is what is raised. -/
def finallyDo (m : Effect σ ε α) (closing : Effect σ ε Unit) : Effect σ ε α := fun s =>
  match m s with
  | (result, s') =>
    match closing s' with
    | (.ok _, s'') => (result, s'')
    | (.error e, s'') => (.error e, s'')

/-- Where the program ends when it is run from a state, and how. -/
def Ensures (m : Effect σ ε α) (s : σ) (post : Except ε α → σ → Prop) : Prop :=
  post (m s).1 (m s).2

/-- What holds after a program that returns, and after one that raises. -/
def outcome (returned : α → σ → Prop) (raised : ε → σ → Prop) : Except ε α → σ → Prop
  | .ok a, s => returned a s
  | .error e, s => raised e s

variable {m : Effect σ ε α} {f : α → Effect σ ε β} {s : σ} {post : Except ε α → σ → Prop}
  {post' : Except ε β → σ → Prop}

theorem Ensures.mono {weaker : Except ε α → σ → Prop} (h : m.Ensures s post)
    (imp : ∀ r t, post r t → weaker r t) : m.Ensures s weaker := imp _ _ h

theorem ensures_pure {a : α} (h : post (.ok a) s) : Ensures (pure a) s post := h

theorem ensures_raise {e : ε} (h : post (.error e) s) : (raise e).Ensures s post := h

theorem ensures_update {g : σ → σ} {post : Except ε Unit → σ → Prop} (h : post (.ok ()) (g s)) :
    (update g).Ensures s post := h

theorem ensures_bind (first : m.Ensures s post)
    (rest : ∀ a t, post (.ok a) t → (f a).Ensures t post')
    (raised : ∀ e t, post (.error e) t → post' (.error e) t) : (m >>= f).Ensures s post' := by
  rw [Ensures] at first ⊢
  rcases run : m s with ⟨result, t⟩
  rw [run] at first
  have unfolds : (m >>= f) s =
      match m s with
      | (.ok a, s') => f a s'
      | (.error e, s') => (.error e, s') := rfl
  rw [unfolds, run]
  cases result with
  | ok a => exact rest a t first
  | error e => exact raised e t first

theorem ensures_update_bind {g : σ → σ} {f : Unit → Effect σ ε β}
    (h : (f ()).Ensures (g s) post') : (update g >>= f).Ensures s post' := h

theorem ensures_catching {handler : ε → Option α} (body : m.Ensures s fun r t =>
    match r with
    | .ok a => post (.ok a) t
    | .error e => (∀ a, handler e = some a → post (.ok a) t) ∧
        (handler e = none → post (.error e) t)) : (m.catching handler).Ensures s post := by
  rw [Ensures] at body ⊢
  rw [catching]
  rcases run : m s with ⟨result, t⟩
  rw [run] at body
  cases result with
  | ok a => exact body
  | error e =>
    simp only at body ⊢
    cases answer : handler e with
    | some a => exact body.1 a answer
    | none => exact body.2 answer

theorem ensures_rescue {handler : ε → Effect σ ε α} {post' : Except ε α → σ → Prop}
    (body : m.Ensures s post) (done : ∀ a t, post (.ok a) t → post' (.ok a) t)
    (raised : ∀ e t, post (.error e) t → (handler e).Ensures t post') :
    (m.rescue handler).Ensures s post' := by
  rw [Ensures] at body ⊢
  rw [rescue]
  rcases run : m s with ⟨result, t⟩
  rw [run] at body
  cases result with
  | ok a => exact done a t body
  | error e => exact raised e t body

theorem ensures_rescue_bind {handler : ε → Effect σ ε β} (first : m.Ensures s post)
    (rest : ∀ a t, post (.ok a) t → ((f a).rescue handler).Ensures t post')
    (raised : ∀ e t, post (.error e) t → (handler e).Ensures t post') :
    ((m >>= f).rescue handler).Ensures s post' := by
  rw [Ensures] at first ⊢
  rcases run : m s with ⟨result, t⟩
  rw [run] at first
  have unfolds : ((m >>= f).rescue handler) s =
      match m s with
      | (.ok a, s') => (f a).rescue handler s'
      | (.error e, s') => handler e s' := by
    change (match ((match m s with
      | (.ok a, s') => f a s'
      | (.error e, s') => (.error e, s')) : Except ε β × σ) with
      | (.ok b, s') => (Except.ok b, s')
      | (.error e, s') => handler e s') = _
    rw [run]
    cases result with
    | ok a => rfl
    | error e => rfl
  rw [unfolds, run]
  cases result with
  | ok a => exact rest a t first
  | error e => exact raised e t first

theorem ensures_finallyDo {closing : Effect σ ε Unit} {post' : Except ε α → σ → Prop}
    (body : m.Ensures s post)
    (closes : ∀ r t, post r t → closing.Ensures t
      (outcome (fun _ u => post' r u) fun e u => post' (.error e) u)) :
    (m.finallyDo closing).Ensures s post' := by
  rw [Ensures] at body ⊢
  rw [finallyDo]
  rcases run : m s with ⟨result, t⟩
  rw [run] at body
  have closed := closes result t body
  rw [Ensures] at closed
  dsimp only
  rcases ran : closing t with ⟨answer, u⟩
  rw [ran] at closed
  cases answer with
  | ok _ => exact closed
  | error e => exact closed

end Effect

end Rankuno

import BitStore.Error
import BitStore.Note

/-! Operations on a state. Whether one answers or stops, the state that it reached and its notes are there to be seen. -/

namespace BitStore

inductive Stop where
  | error (e : StoreError)
  | fault (f : Fault)
  deriving DecidableEq, Repr

structure Outcome (σ α : Type) where
  result : Except Stop α
  state : σ
  notes : List Note

def Action (σ α : Type) : Type := σ → Outcome σ α

namespace Action

variable {σ τ α β : Type}

def run (x : Action σ α) (s : σ) : Outcome σ α := x s

protected def pure (a : α) : Action σ α := fun s => ⟨.ok a, s, []⟩

protected def bind (x : Action σ α) (f : α → Action σ β) : Action σ β := fun s =>
  match x s with
  | ⟨.ok a, t, before⟩ =>
    match f a t with
    | ⟨r, u, after⟩ => ⟨r, u, before ++ after⟩
  | ⟨.error e, t, before⟩ => ⟨.error e, t, before⟩

instance : Monad (Action σ) where
  pure := Action.pure
  bind := Action.bind

def get : Action σ σ := fun s => ⟨.ok s, s, []⟩

def set (s : σ) : Action σ Unit := fun _ => ⟨.ok (), s, []⟩

def modify (f : σ → σ) : Action σ Unit := fun s => ⟨.ok (), f s, []⟩

def say (n : Note) : Action σ Unit := fun s => ⟨.ok (), s, [n]⟩

def fail (e : StoreError) : Action σ α := fun s => ⟨.error (.error e), s, []⟩

def halt (f : Fault) : Action σ α := fun s => ⟨.error (.fault f), s, []⟩

def check : Except Fault α → Action σ α
  | .ok a => Action.pure a
  | .error f => halt f

instance : MonadLift (Except Fault) (Action σ) where
  monadLift := check

def read (f : σ → Except Fault α) : Action σ α := fun s => check (f s) s

def update (f : σ → Except Fault (α × σ)) : Action σ α := fun s =>
  match f s with
  | .ok (a, t) => ⟨.ok a, t, []⟩
  | .error e => halt e s

def attempt (x : Action σ α) : Action σ (Except StoreError α) := fun s =>
  match x s with
  | ⟨.ok a, t, notes⟩ => ⟨.ok (.ok a), t, notes⟩
  | ⟨.error (.error e), t, notes⟩ => ⟨.ok (.error e), t, notes⟩
  | ⟨.error (.fault f), t, notes⟩ => ⟨.error (.fault f), t, notes⟩

def zoom (part : σ → τ) (put : τ → σ → σ) (x : Action τ α) : Action σ α := fun s =>
  match x (part s) with
  | ⟨r, t, notes⟩ => ⟨r, put t s, notes⟩

end Action

end BitStore

import Mathlib.Data.Nat.Notation

/-!
# Programs that talk to an environment

A program is a tree of operations: it is finished, or it has issued one
operation and continues with the answer. Stopping a process between two
operations is stopping at a node of this tree, so crash points need no
machinery of their own. `Act` adds memory and exceptions in the way an
imperative language has them: a raised exception keeps the memory it was
raised in.
-/

namespace Preseed.Effects

/-- The operations a program may issue, with the type of answer to each. -/
structure Interface where
  /-- The operations. -/
  Op : Type
  /-- The answers to an operation. -/
  Res : Op → Type

/-- A program over an interface. A call shows the program's memory next to the
operation, so that statements about a run can relate the two. -/
inductive Program (ι : Interface) (σ α : Type) : Type
  | done (a : α)
  | call (mem : σ) (op : ι.Op) (next : ι.Res op → Program ι σ α)

namespace Program

variable {ι : Interface} {σ α β : Type}

/-- Run one program and continue with its result. -/
def bind : Program ι σ α → (α → Program ι σ β) → Program ι σ β
  | done a, k => k a
  | call mem op next, k => call mem op fun r => (next r).bind k

/-- Run a program against an environment that answers deterministically, for at most `n`
operations. The result is the environment's state and what is left of the program. -/
def runFor {W : Type} (answer : W → σ → (op : ι.Op) → ι.Res op × W) :
    ℕ → W → Program ι σ α → W × Program ι σ α
  | 0, w, p => (w, p)
  | _ + 1, w, done a => (w, done a)
  | n + 1, w, call mem op next =>
    let (r, w') := answer w mem op
    runFor answer n w' (next r)

/-- Every operation of a deterministic run passes a check. -/
def checkedFor {W : Type} (answer : W → σ → (op : ι.Op) → ι.Res op × W)
    (check : W → σ → ι.Op → Bool) : ℕ → W → Program ι σ α → Bool
  | 0, _, _ => true
  | _ + 1, _, done _ => true
  | n + 1, w, call mem op next =>
    check w mem op &&
      let (r, w') := answer w mem op
      checkedFor answer check n w' (next r)

/-- The operation a program is about to issue, with its memory. -/
def issued? : Program ι σ α → Option (σ × ι.Op)
  | done _ => none
  | call mem op _ => some (mem, op)

/-- The result of a finished program. -/
def result? : Program ι σ α → Option α
  | done a => some a
  | call _ _ _ => none

end Program

/-- A stateful program that may raise: from a memory to an outcome and the memory it ends in. -/
def Act (ι : Interface) (σ ε α : Type) : Type := σ → Program ι σ (Except ε α × σ)

namespace Act

variable {ι : Interface} {σ ε α β γ : Type}

/-- Continue after a success; an exception passes through with its memory. -/
def bind (m : Act ι σ ε α) (f : α → Act ι σ ε β) : Act ι σ ε β := fun s =>
  (m s).bind fun x =>
    match x with
    | (.ok a, s') => f a s'
    | (.error e, s') => .done (.error e, s')

instance : Monad (Act ι σ ε) where
  pure a := fun s => .done (.ok a, s)
  bind := bind

/-- Raise an exception. -/
def raise (e : ε) : Act ι σ ε α := fun s => .done (.error e, s)

/-- Handle the exceptions of a program; memory changes made before the exception stay. -/
def handle (m : Act ι σ ε α) (h : ε → Act ι σ ε α) : Act ι σ ε α := fun s =>
  (m s).bind fun x =>
    match x with
    | (.ok a, s') => .done (.ok a, s')
    | (.error e, s') => h e s'

/-- Handle the exceptions a predicate selects; the others pass. -/
def handleIf (m : Act ι σ ε α) (selects : ε → Bool) (h : ε → Act ι σ ε α) : Act ι σ ε α :=
  handle m fun e => if selects e then h e else raise e

/-- Run a finalizer after a program, whether it raises or not; an exception of the finalizer
replaces the outcome. -/
def ensuring (m : Act ι σ ε α) (finalizer : Act ι σ ε Unit) : Act ι σ ε α := fun s =>
  (m s).bind fun x =>
    (finalizer x.2).bind fun y =>
      match y with
      | (.ok _, s') => .done (x.1, s')
      | (.error e, s') => .done (.error e, s')

/-- Read the memory. -/
def get : Act ι σ ε σ := fun s => .done (.ok s, s)

/-- Change the memory. -/
def modify (f : σ → σ) : Act ι σ ε Unit := fun s => .done (.ok (), f s)

/-- Issue an operation. -/
def perform (op : ι.Op) : Act ι σ ε (ι.Res op) := fun s => .call s op fun r => .done (.ok r, s)

/-- Run a program under a condition. -/
def when (c : Prop) [Decidable c] (m : Act ι σ ε Unit) : Act ι σ ε Unit := if c then m else pure ()

/-- Turn an explicit result into a success or an exception. -/
def lift (x : Except ε α) : Act ι σ ε α := fun s => .done (x, s)

/-- A loop over a list with local variables. -/
def fold (f : β → α → Act ι σ ε β) : β → List α → Act ι σ ε β
  | b, [] => pure b
  | b, x :: xs => f b x >>= fun b' => fold f b' xs

/-- A loop over a list without local variables. -/
def forEach (xs : List α) (f : α → Act ι σ ε Unit) : Act ι σ ε Unit :=
  fold (fun _ x => f x) () xs

end Act

/-! ### Rearranging programs

A sequence of programs may be cut anywhere, so that a long program can be read as the
sequence of its parts. -/

section Laws

variable {ι : Interface} {σ ε α β γ : Type}

theorem Program.bind_assoc (p : Program ι σ α) (k : α → Program ι σ β) (k' : β → Program ι σ γ) :
    (p.bind k).bind k' = p.bind fun a => (k a).bind k' := by
  induction p with
  | done a => rfl
  | call s op next ih => exact congrArg (Program.call s op) (funext ih)

namespace Act

theorem bind_assoc (m : Act ι σ ε α) (f : α → Act ι σ ε β) (g : β → Act ι σ ε γ) :
    m >>= f >>= g = m >>= fun a => f a >>= g := by
  funext s
  refine (Program.bind_assoc _ _ _).trans ?_
  congr 1
  funext x
  obtain ⟨e | a, s'⟩ := x
  · rfl
  · rfl

theorem pure_bind (a : α) (f : α → Act ι σ ε β) : (pure a : Act ι σ ε α) >>= f = f a := rfl

theorem raise_bind (e : ε) (f : α → Act ι σ ε β) :
    (Act.raise e : Act ι σ ε α) >>= f = Act.raise e := rfl

end Act

end Laws

end Preseed.Effects

/-!
# Programs that ask for one thing at a time

A program is a finite tree of questions: it either is done with a value, or asks a question and
goes on with the answer. What answers the questions is not part of the program, so one program can
run against stores that work, that fail, or that other programs use at the same time.
-/

namespace ContestPlatform

/-- A program that asks questions of type `Q`, where the answer to `q` has type `A q`. -/
inductive Program (Q : Type) (A : Q → Type) (α : Type) : Type where
  /-- The program has its value. -/
  | done (a : α)
  /-- The program asks a question and goes on with the answer. -/
  | ask (q : Q) (next : A q → Program Q A α)

namespace Program

variable {Q : Type} {A : Q → Type} {α β σ : Type}

/-- Go on with a second program when the first one is done. -/
def bind (p : Program Q A α) (f : α → Program Q A β) : Program Q A β :=
  match p with
  | .done a => f a
  | .ask q next => .ask q fun a => (next a).bind f

instance : Monad (Program Q A) where
  pure := .done
  bind := bind

/-- The program that asks one question and gives back its answer. -/
def call (q : Q) : Program Q A (A q) :=
  .ask q .done

/-- Run a program on a state that changes with every answer. -/
def run (answer : (q : Q) → σ → A q × σ) : Program Q A α → σ → α × σ
  | .done a, s => (a, s)
  | .ask q next, s =>
    let (a, s) := answer q s
    (next a).run answer s

/-- Run a program as long as its questions are answered. It has no value if one of them is not. -/
def runUntil (answer : (q : Q) → σ → Option (A q) × σ) : Program Q A α → σ → Option α × σ
  | .done a, s => (some a, s)
  | .ask q next, s =>
    match answer q s with
    | (some a, s) => (next a).runUntil answer s
    | (none, s) => (none, s)

/-! ## Laws -/

/-- Two programs that ask the same and go on the same are the same. -/
theorem ask_congr {q : Q} {next next' : A q → Program Q A α} (h : ∀ a, next a = next' a) :
    ask q next = ask q next' :=
  congrArg _ (funext h)

@[simp] theorem done_bind (a : α) (f : α → Program Q A β) : (done a).bind f = f a := rfl

@[simp] theorem ask_bind (q : Q) (next : A q → Program Q A α) (f : α → Program Q A β) :
    (ask q next).bind f = .ask q fun a => (next a).bind f := rfl

@[simp] theorem bind_done (p : Program Q A α) : p.bind done = p := by
  induction p with
  | done => rfl
  | ask q next ih => simp [ih]

theorem bind_assoc {γ : Type} (p : Program Q A α) (f : α → Program Q A β)
    (g : β → Program Q A γ) : (p.bind f).bind g = p.bind fun a => (f a).bind g := by
  induction p with
  | done => rfl
  | ask q next ih => simp [ih]

instance : LawfulMonad (Program Q A) :=
  LawfulMonad.mk' _ bind_done (fun _ _ => rfl) bind_assoc

/-- A run of two programs in sequence is a run of the second one from where the first one ends. -/
theorem run_bind (answer : (q : Q) → σ → A q × σ) (p : Program Q A α)
    (f : α → Program Q A β) (s : σ) :
    (p.bind f).run answer s = (f (p.run answer s).1).run answer (p.run answer s).2 := by
  induction p generalizing s with
  | done => rfl
  | ask q next ih => simp [run, ih]

end Program

end ContestPlatform

import WhileTyping.Log.Event

/-!
# Checks

A check ends with a result or a type error, and in both cases has reported events on the way. A
visit is a check of a piece of a tree that also leaves something behind (the piece with the types
found so far, the variables in scope), again whether it succeeds or fails.
-/

namespace WhileTyping

open Log (Event)

structure Check (α : Type) where
  log : List Event
  result : Except TypeError α

namespace Check

def pure {α : Type} (a : α) : Check α := ⟨[], .ok a⟩

def fail {α : Type} (e : TypeError) : Check α := ⟨[], .error e⟩

def report (e : Event) : Check Unit := ⟨[e], .ok ()⟩

def ofExcept {α : Type} (r : Except TypeError α) : Check α := ⟨[], r⟩

def bind {α β : Type} (c : Check α) (k : α → Check β) : Check β :=
  match c.result with
  | .ok a => let d := k a; ⟨c.log ++ d.log, d.result⟩
  | .error e => ⟨c.log, .error e⟩

/-- The same check, with a place for an error that has none. -/
def orAt {α : Type} (c : Check α) (span : Option Span) : Check α :=
  { c with result := located span c.result }

instance : Monad Check where
  pure := pure
  bind := bind

instance : MonadLift (Except TypeError) Check := ⟨ofExcept⟩

instance : LawfulMonad Check := LawfulMonad.mk' Check
  (by
    intro α c
    rcases c with ⟨log, result⟩
    cases result <;> simp [Functor.map, bind, pure])
  (by intro α β a k; simp [Bind.bind, Pure.pure, bind, pure])
  (by
    intro α β γ c k m
    rcases c with ⟨log, result⟩
    cases result with
    | error e => simp [Bind.bind, bind]
    | ok a =>
      simp only [Bind.bind, bind]
      cases (k a).result <;> simp)

/-! ## Results of composed checks -/

@[simp] theorem result_pure {α : Type} (a : α) : (Pure.pure a : Check α).result = .ok a := rfl

@[simp] theorem result_report (e : Event) : (report e).result = .ok () := rfl

@[simp] theorem result_lift {α : Type} (r : Except TypeError α) :
    (liftM r : Check α).result = r := rfl

/-- What comes second is looked at only if the first check succeeds. -/
theorem result_bind {α β : Type} (c : Check α) (k : α → Check β) :
    (c >>= k).result = c.result.bind fun a => (k a).result := by
  show (c.bind k).result = _
  unfold bind
  cases c.result <;> rfl

/-- The events of two checks in sequence, in the order in which they were reported. -/
theorem log_bind_of_ok {α β : Type} {c : Check α} {a : α} (k : α → Check β)
    (h : c.result = .ok a) : (c >>= k).log = c.log ++ (k a).log := by
  show (c.bind k).log = _
  simp [bind, h]

/-- After a failure nothing more is reported. -/
theorem log_bind_of_error {α β : Type} {c : Check α} {e : TypeError} (k : α → Check β)
    (h : c.result = .error e) : (c >>= k).log = c.log := by
  show (c.bind k).log = _
  simp [bind, h]

end Check

/-- A check that leaves something behind. -/
structure Visit (σ α : Type) where
  left : σ
  run : Check α

namespace Visit

/-- Goes on after a visit that succeeds; `stop` says what is left behind by one that fails. -/
def andThen {σ τ α β : Type} (v : Visit σ α) (stop : σ → τ) (next : σ → α → Visit τ β) :
    Visit τ β :=
  match v.run.result with
  | .ok a => let w := next v.left a; ⟨w.left, ⟨v.run.log ++ w.run.log, w.run.result⟩⟩
  | .error e => ⟨stop v.left, ⟨v.run.log, .error e⟩⟩

/-- The same visit, seen as part of a larger piece. -/
def within {σ τ α : Type} (v : Visit σ α) (f : σ → τ) : Visit τ α := ⟨f v.left, v.run⟩

/-- The same visit, with a place for an error that has none. -/
def orAt {σ α : Type} (v : Visit σ α) (span : Option Span) : Visit σ α :=
  ⟨v.left, v.run.orAt span⟩

/-- Runs a check first; if it fails, the piece is left as it stands. -/
def after {σ α β : Type} (c : Check α) (untouched : σ) (next : α → Visit σ β) : Visit σ β :=
  andThen ⟨untouched, c⟩ id fun _ a => next a

/-- What goes on after a visit that succeeds decides what is left behind. -/
theorem left_andThen_of_ok {σ τ α β : Type} {v : Visit σ α} {a : α} (stop : σ → τ)
    (next : σ → α → Visit τ β) (h : v.run.result = .ok a) :
    (v.andThen stop next).left = (next v.left a).left := by
  simp [andThen, h]

/-- A visit that fails leaves its piece within the larger one as `stop` puts it there. -/
theorem left_andThen_of_error {σ τ α β : Type} {v : Visit σ α} {e : TypeError} (stop : σ → τ)
    (next : σ → α → Visit τ β) (h : v.run.result = .error e) :
    (v.andThen stop next).left = stop v.left := by
  simp [andThen, h]

/-- Without what they leave behind, visits in sequence are checks in sequence. -/
theorem run_andThen {σ τ α β : Type} (v : Visit σ α) (stop : σ → τ) (next : σ → α → Visit τ β) :
    (v.andThen stop next).run = v.run >>= fun a => (next v.left a).run := by
  show _ = v.run.bind _
  unfold andThen Check.bind
  cases v.run.result <;> rfl

@[simp] theorem left_within {σ τ α : Type} (v : Visit σ α) (f : σ → τ) :
    (v.within f).left = f v.left := rfl

@[simp] theorem run_within {σ τ α : Type} (v : Visit σ α) (f : σ → τ) :
    (v.within f).run = v.run := rfl

end Visit

end WhileTyping

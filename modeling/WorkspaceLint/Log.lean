import WorkspaceLint.Failure
import WorkspaceLint.Text.Case

/-!
# Logging

Levels, events, and computations that keep a log. A `Logged` computation has a result or the failure that ended it, and in
either case the events it has logged, in order; what runs after a failure logs nothing.
-/

namespace WorkspaceLint

/-- How much an event matters. -/
inductive Level where
  /-- Every step. -/
  | trace
  /-- What the program is doing. -/
  | debug
  /-- What a user may like to know. -/
  | info
  /-- Something worked. -/
  | success
  /-- Something is odd. -/
  | warning
  /-- Something failed. -/
  | error
  /-- Nothing works any more. -/
  | critical
deriving DecidableEq

namespace Level

/-- The number of a level; greater ones matter more. -/
def severity : Level → Nat
  | .trace => 5
  | .debug => 10
  | .info => 20
  | .success => 25
  | .warning => 30
  | .error => 40
  | .critical => 50

/-- The name of a level. -/
def name : Level → String
  | .trace => "TRACE"
  | .debug => "DEBUG"
  | .info => "INFO"
  | .success => "SUCCESS"
  | .warning => "WARNING"
  | .error => "ERROR"
  | .critical => "CRITICAL"

/-- All levels, in ascending order. -/
def all : List Level := [.trace, .debug, .info, .success, .warning, .error, .critical]

/-- The level of a name. -/
def ofName? (s : String) : Option Level := all.find? (·.name == s)

theorem ofName?_name (l : Level) : ofName? l.name = some l := by cases l <;> decide

/-- The level of a name in any case, or the name in upper case when there is none. -/
def ofAnyCase (s : String) : Except String Level :=
  match ofName? (Text.uppered s) with
  | some l => .ok l
  | none => .error (Text.uppered s)

end Level

/-- The message for a name that is no level's. -/
def unknownLevelMessage (name : String) : String := "Level '" ++ name ++ "' does not exist"

/-- Something logged. -/
structure Event where
  /-- How much it matters. -/
  level : Level
  /-- What it says. -/
  message : String
deriving DecidableEq

/-- The events that pass a level. -/
def passing (threshold : Level) (events : List Event) : List Event :=
  events.filter fun e => threshold.severity ≤ e.level.severity

/-- The events of messages with the names of their levels, or the first name that is no level's. -/
def eventsOf : List (String × String) → Except String (List Event)
  | [] => .ok []
  | (name, message) :: rest =>
    match Level.ofName? name with
    | some level => (eventsOf rest).map (⟨level, message⟩ :: ·)
    | none => .error name

/-- A computation that keeps a log. -/
structure Logged (α : Type) where
  /-- The result, or the failure that ended the computation. -/
  outcome : Except Failure α
  /-- What was logged, in order. -/
  events : List Event

namespace Logged

/-- A result without events. -/
def ok {α : Type} (a : α) : Logged α := ⟨.ok a, []⟩

/-- One computation after another, on the result of the first. -/
def andThen {α β : Type} (x : Logged α) (f : α → Logged β) : Logged β :=
  match x.outcome with
  | .ok a => ⟨(f a).outcome, x.events ++ (f a).events⟩
  | .error e => ⟨.error e, x.events⟩

instance : Monad Logged where
  pure := ok
  bind := andThen

/-- Logging an event. -/
def log (level : Level) (message : String) : Logged Unit := ⟨.ok (), [⟨level, message⟩]⟩

/-- A result or failure without events. -/
def ofExcept {α : Type} (x : Except Failure α) : Logged α := ⟨x, []⟩

/-- The results of a computation on each member of a list, one after another. -/
def collect {α β : Type} (f : α → Logged (List β)) : List α → Logged (List β)
  | [] => ok []
  | a :: rest => (f a).andThen fun bs => (collect f rest).andThen fun more => ok (bs ++ more)

/-- A computation that goes on after a failure; what was logged before stays. -/
def recover {α : Type} (x : Logged α) (f : Failure → Logged α) : Logged α :=
  match x.outcome with
  | .ok _ => x
  | .error e => ⟨(f e).outcome, x.events ++ (f e).events⟩

@[simp] theorem pure_eq_ok {α : Type} (a : α) : (pure a : Logged α) = ok a := rfl

@[simp] theorem bind_eq_andThen {α β : Type} (x : Logged α) (f : α → Logged β) : (x >>= f) = x.andThen f := rfl

end Logged

end WorkspaceLint

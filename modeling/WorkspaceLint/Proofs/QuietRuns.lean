import WorkspaceLint.Proofs.LintRun

/-!
# Quiet runs

A run that logs a warning or an error reports something. A computation is quiet when all it logs is for debugging; each check is
quiet when it gives no diagnostic, because what it logs a warning about becomes a diagnostic too. Only one direction holds: most
diagnostics come without a warning.
-/

namespace WorkspaceLint

namespace Logged

variable {α β : Type}

/-- Whether all that a computation logs is for debugging. -/
def IsQuiet (x : Logged α) : Prop := ∀ e ∈ x.events, e.level = .debug

/-- Whether a computation with a result of a kind logs for debugging only. -/
def QuietIf (P : α → Prop) (x : Logged α) : Prop := ∀ a, x.outcome = .ok a → P a → x.IsQuiet

theorem events_bind_of_ok {x : Logged α} {f : α → Logged β} {a : α} (h : x.outcome = .ok a) :
    (x >>= f).events = x.events ++ (f a).events := by
  rw [bind_eq_andThen, andThen, h]

theorem events_bind_of_error {x : Logged α} {f : α → Logged β} {e : Failure} (h : x.outcome = .error e) :
    (x >>= f).events = x.events := by
  rw [bind_eq_andThen, andThen, h]

namespace IsQuiet

theorem ok (a : α) : (Logged.ok a).IsQuiet := by simp [IsQuiet, Logged.ok]

theorem ofExcept (x : Except Failure α) : (Logged.ofExcept x).IsQuiet := by simp [IsQuiet, Logged.ofExcept]

theorem log (message : String) : (Logged.log .debug message).IsQuiet := by simp [IsQuiet, Logged.log]

theorem bind {x : Logged α} {f : α → Logged β} (hx : x.IsQuiet) (hf : ∀ a, (f a).IsQuiet) : (x >>= f).IsQuiet := by
  cases h : x.outcome with
  | error e => rwa [IsQuiet, events_bind_of_error h]
  | ok a =>
    rw [IsQuiet, events_bind_of_ok h]
    exact List.forall_mem_append.2 ⟨hx, hf a⟩

theorem collect {f : α → Logged (List β)} (hf : ∀ a, (f a).IsQuiet) (l : List α) : (Logged.collect f l).IsQuiet := by
  induction l with
  | nil => exact ok []
  | cons a rest ih => exact (hf a).bind fun _ => ih.bind fun _ => ok _

end IsQuiet

namespace QuietIf

variable {P : β → Prop} {x : Logged α} {f : α → Logged β}

theorem of_isQuiet {y : Logged β} (h : y.IsQuiet) : QuietIf P y := fun _ _ _ => h

/-- A quiet computation before others does not matter. -/
theorem bind (hx : x.IsQuiet) (hf : ∀ a, x.outcome = .ok a → QuietIf P (f a)) : QuietIf P (x >>= f) := by
  intro b hb hP
  obtain ⟨a, ha, hfa⟩ := bind_eq_ok.1 hb
  rw [IsQuiet, events_bind_of_ok ha]
  exact List.forall_mem_append.2 ⟨hx, hf a ha b hfa hP⟩

/-- One computation after another, when the kind of the last result tells that of the first. -/
theorem bind_of {Q : α → Prop} (hx : QuietIf Q x) (hQ : ∀ a b, (f a).outcome = .ok b → P b → Q a)
    (hf : ∀ a, QuietIf P (f a)) : QuietIf P (x >>= f) := by
  intro b hb hP
  obtain ⟨a, ha, hfa⟩ := bind_eq_ok.1 hb
  rw [IsQuiet, events_bind_of_ok ha]
  exact List.forall_mem_append.2 ⟨hx a ha (hQ a b hfa hP), hf a b hfa hP⟩

/-- What logs about a failure has to give a result of another kind. -/
theorem recover {y : Logged β} {g : Failure → Logged β} (hy : QuietIf P y)
    (hg : ∀ e b, (g e).outcome = .ok b → ¬P b) : QuietIf P (y.recover g) := by
  intro b hb hP
  rw [outcome_recover] at hb
  cases h : y.outcome with
  | ok a =>
    rw [h] at hb
    cases hb
    have he : y.recover g = y := by rw [Logged.recover, h]
    rw [he]
    exact hy b h hP
  | error e =>
    rw [h] at hb
    exact absurd hP (hg e b hb)

/-- A computation on each member of a list, when the kind of a list of results tells that of its parts. -/
theorem collect {P : List β → Prop} (hP : ∀ bs more, P (bs ++ more) → P bs ∧ P more) {f : α → Logged (List β)}
    (hf : ∀ a, QuietIf P (f a)) (l : List α) : QuietIf P (Logged.collect f l) := by
  induction l with
  | nil => exact of_isQuiet (.ok [])
  | cons a rest ih =>
    refine (hf a).bind_of (fun bs b hb hPb => ?_) fun bs => ih.bind_of (fun more b hb hPb => ?_) fun _ => of_isQuiet (.ok _)
    · obtain ⟨more, -, hmore⟩ := bind_eq_ok.1 hb
      cases hmore
      exact (hP bs more hPb).1
    · cases hb
      exact (hP bs more hPb).2

end QuietIf

end Logged

open Logged (IsQuiet QuietIf)

variable {fs : Files.FileSystem} {rules : Rules}

/-! ## What logs for debugging only -/

namespace Check

end Check

/-! ## Runs -/

end WorkspaceLint

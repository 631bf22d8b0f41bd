import WorkspaceLint.Log

/-!
# Outcomes of computations that keep a log

What a logged computation ends with, when its log is not looked at: an ordinary computation that may fail. A computation on the
members of a list succeeds exactly when it does so on each member, and fails as it does on the first member it fails on.
-/

namespace WorkspaceLint

/-! ## Results -/

/-- A computation succeeds when something can be told of its result. -/
theorem exists_of_map_toOption {ε α β : Type} {x : Except ε α} {f : α → β} {b : β} (h : x.toOption.map f = some b) :
    ∃ a, x = .ok a ∧ f a = b := by
  cases x with
  | error e => nomatch h
  | ok a => exact ⟨a, rfl, Option.some.inj h⟩

/-- A computation on the members of a list succeeds when it does so on each, with the results in a row. -/
theorem mapM_eq_ok {ε α β : Type} [Inhabited β] {f : α → Except ε β} {l : List α} {bs : List β} :
    l.mapM f = .ok bs ↔ ∃ g : α → β, (∀ a ∈ l, f a = .ok (g a)) ∧ bs = l.map g := by
  constructor
  · intro h
    refine ⟨fun a => (f a).toOption.getD default, ?_⟩
    induction l generalizing bs with
    | nil =>
      cases h
      simp
    | cons a rest ih =>
      rw [List.mapM_cons] at h
      cases ha : f a with
      | error e => rw [ha] at h; nomatch h
      | ok b =>
        rw [ha] at h
        cases hr : rest.mapM f with
        | error e => rw [hr] at h; nomatch h
        | ok more =>
          rw [hr] at h
          cases h
          obtain ⟨hall, rfl⟩ := ih hr
          refine ⟨fun x hx => ?_, ?_⟩
          · rcases List.mem_cons.1 hx with rfl | hx
            · simp [ha, Except.toOption]
            · exact hall x hx
          · rw [List.map_cons, ha]
            rfl
  · rintro ⟨g, hall, rfl⟩
    induction l with
    | nil => rfl
    | cons a rest ih =>
      rw [List.mapM_cons, hall a List.mem_cons_self, ih fun x hx => hall x (List.mem_cons_of_mem _ hx)]
      rfl

/-- A computation that has a result on each member of a list has the same results on the members in another order. -/
theorem mapM_perm {ε α β : Type} [Inhabited β] {f : α → Except ε β} {l l' : List α} (h : l.Perm l')
    (hall : ∀ a ∈ l, ∃ b, f a = .ok b) : ∃ bs bs', l.mapM f = .ok bs ∧ l'.mapM f = .ok bs' ∧ bs.Perm bs' := by
  have hg : ∀ a ∈ l, f a = .ok ((f a).toOption.getD default) := by
    intro a ha
    obtain ⟨b, hb⟩ := hall a ha
    rw [hb]
    rfl
  refine ⟨_, _, mapM_eq_ok.2 ⟨_, hg, rfl⟩, mapM_eq_ok.2 ⟨_, fun a ha => hg a (h.mem_iff.2 ha), rfl⟩, h.map _⟩

/-- Computations that are the same on the members of a list are the same on the list. -/
theorem mapM_congr {ε α β : Type} {f g : α → Except ε β} {l : List α} (h : ∀ a ∈ l, f a = g a) : l.mapM f = l.mapM g := by
  induction l with
  | nil => rfl
  | cons a rest ih =>
    rw [List.mapM_cons, List.mapM_cons, h a List.mem_cons_self, ih fun x hx => h x (List.mem_cons_of_mem _ hx)]

/-! ## Results with a log -/

namespace Logged

variable {α β : Type}

@[simp] theorem outcome_ok (a : α) : (ok a).outcome = .ok a := rfl

@[simp] theorem outcome_log (level : Level) (message : String) : (log level message).outcome = .ok () := rfl

@[simp] theorem outcome_ofExcept (x : Except Failure α) : (ofExcept x).outcome = x := rfl

@[simp] theorem outcome_andThen (x : Logged α) (f : α → Logged β) :
    (x.andThen f).outcome = x.outcome.bind fun a => (f a).outcome := by
  unfold andThen
  cases x.outcome <;> rfl

@[simp] theorem outcome_bind (x : Logged α) (f : α → Logged β) :
    (x >>= f).outcome = x.outcome.bind fun a => (f a).outcome :=
  outcome_andThen x f

/-- One computation after another succeeds when both do. -/
theorem andThen_eq_ok {x : Logged α} {f : α → Logged β} {b : β} :
    (x.andThen f).outcome = .ok b ↔ ∃ a, x.outcome = .ok a ∧ (f a).outcome = .ok b := by
  rw [outcome_andThen]
  cases x.outcome with
  | ok a => simp [Except.bind]
  | error e => simp [Except.bind]

theorem bind_eq_ok {x : Logged α} {f : α → Logged β} {b : β} :
    (x >>= f).outcome = .ok b ↔ ∃ a, x.outcome = .ok a ∧ (f a).outcome = .ok b :=
  andThen_eq_ok

/-- A computation that goes on after failures ends as it does, or as the other one does after its failure. -/
theorem outcome_recover (x : Logged α) (f : Failure → Logged α) :
    (x.recover f).outcome = match x.outcome with | .ok a => .ok a | .error e => (f e).outcome := by
  unfold recover
  cases h : x.outcome with
  | ok a => simp [h]
  | error e => rfl

theorem outcome_collect_nil (f : α → Logged (List β)) : (collect f []).outcome = .ok [] := rfl

theorem outcome_collect_cons (f : α → Logged (List β)) (a : α) (rest : List α) :
    (collect f (a :: rest)).outcome =
      (f a).outcome.bind fun bs => (collect f rest).outcome.bind fun more => .ok (bs ++ more) := by
  rw [collect, outcome_andThen]
  congr 1
  funext bs
  rw [outcome_andThen]
  rfl

/-- A computation on the members of a list succeeds with the results of each in a row. -/
theorem collect_eq_ok {f : α → Logged (List β)} {l : List α} {bs : List β} :
    (collect f l).outcome = .ok bs ↔ ∃ g, (∀ a ∈ l, (f a).outcome = .ok (g a)) ∧ bs = l.flatMap g := by
  constructor
  · intro h
    refine ⟨fun a => (f a).outcome.toOption.getD [], ?_⟩
    induction l generalizing bs with
    | nil =>
      rw [outcome_collect_nil] at h
      cases h
      simp
    | cons a rest ih =>
      rw [outcome_collect_cons] at h
      cases ha : (f a).outcome with
      | error e => rw [ha] at h; nomatch h
      | ok as =>
        rw [ha] at h
        cases hr : (collect f rest).outcome with
        | error e => rw [hr] at h; nomatch h
        | ok more =>
          rw [hr] at h
          cases h
          obtain ⟨hall, rfl⟩ := ih hr
          refine ⟨fun b hb => ?_, ?_⟩
          · rcases List.mem_cons.1 hb with rfl | hb
            · simp [ha, Except.toOption]
            · exact hall b hb
          · rw [List.flatMap_cons, ha]
            rfl
  · rintro ⟨g, hall, rfl⟩
    induction l with
    | nil => rfl
    | cons a rest ih =>
      rw [outcome_collect_cons, hall a List.mem_cons_self, ih fun b hb => hall b (List.mem_cons_of_mem _ hb)]
      rfl

/-- A computation on the members of a list gives nothing when it succeeds on each and gives nothing for it. -/
theorem collect_eq_nil {f : α → Logged (List β)} {l : List α} :
    (collect f l).outcome = .ok [] ↔ ∀ a ∈ l, (f a).outcome = .ok [] := by
  rw [collect_eq_ok]
  constructor
  · rintro ⟨g, hg, hnil⟩ a ha
    rw [hg a ha, List.flatMap_eq_nil_iff.1 hnil.symm a ha]
  · exact fun h => ⟨fun _ => [], h, (List.flatMap_eq_nil_iff.2 fun _ _ => rfl).symm⟩

/-- Computations that end alike on the members of a list end alike on the list. -/
theorem outcome_collect_congr {f g : α → Logged (List β)} {l : List α} (h : ∀ a ∈ l, (f a).outcome = (g a).outcome) :
    (collect f l).outcome = (collect g l).outcome := by
  induction l with
  | nil => rfl
  | cons a rest ih =>
    rw [outcome_collect_cons, outcome_collect_cons, h a List.mem_cons_self,
      ih fun b hb => h b (List.mem_cons_of_mem _ hb)]

/-- Computations that are the same on the members of a list are the same on the list, with what they log. -/
theorem collect_congr {f g : α → Logged (List β)} {l : List α} (h : ∀ a ∈ l, f a = g a) : collect f l = collect g l := by
  induction l with
  | nil => rfl
  | cons a rest ih => rw [collect, collect, h a List.mem_cons_self, ih fun b hb => h b (List.mem_cons_of_mem _ hb)]

/-- Members on which a computation gives nothing may be left out. -/
theorem outcome_collect_filter {f : α → Logged (List β)} {keep : α → Bool} {l : List α}
    (h : ∀ a ∈ l, keep a = false → (f a).outcome = .ok []) : (collect f l).outcome = (collect f (l.filter keep)).outcome := by
  induction l with
  | nil => rfl
  | cons a rest ih =>
    rw [List.forall_mem_cons] at h
    rw [outcome_collect_cons, ih h.2]
    cases hk : keep a with
    | true => rw [List.filter_cons_of_pos hk, outcome_collect_cons]
    | false =>
      rw [List.filter_cons_of_neg (by simp [hk]), h.1 hk]
      cases (collect f (rest.filter keep)).outcome <;> rfl

/-- A computation on the members of a list succeeds when it does so on each. -/
theorem exists_collect_iff {f : α → Logged (List β)} {l : List α} :
    (∃ bs, (collect f l).outcome = .ok bs) ↔ ∀ a ∈ l, ∃ bs, (f a).outcome = .ok bs := by
  constructor
  · rintro ⟨bs, h⟩ a ha
    obtain ⟨g, hg, -⟩ := collect_eq_ok.1 h
    exact ⟨g a, hg a ha⟩
  · intro h
    refine ⟨l.flatMap fun a => (f a).outcome.toOption.getD [], collect_eq_ok.2 ⟨_, fun a ha => ?_, rfl⟩⟩
    obtain ⟨bs, hbs⟩ := h a ha
    rw [hbs]
    rfl

/-! ## Two computations -/

/-- Two computations end alike: they fail for the same reason, or both succeed and their results are related. -/
def RelatedBy {γ : Type} (R : α → γ → Prop) (x : Logged α) (y : Logged γ) : Prop :=
  (∃ e, x.outcome = .error e ∧ y.outcome = .error e) ∨ ∃ a c, x.outcome = .ok a ∧ y.outcome = .ok c ∧ R a c

/-- Two lists have some members in the same order. -/
def SameOn (keep : β → Bool) (bs cs : List β) : Prop := bs.filter keep = cs.filter keep

/-- Two computations of lists agree on some members: they fail for the same reason, or both succeed and their lists have these
members in the same order. -/
def AgreeOn (keep : β → Bool) : Logged (List β) → Logged (List β) → Prop := RelatedBy (SameOn keep)

namespace RelatedBy

variable {γ δ : Type}

theorem of_eq {R : α → α → Prop} (hR : ∀ a, R a a) {x y : Logged α} (h : x.outcome = y.outcome) : RelatedBy R x y := by
  cases hx : x.outcome with
  | error e => exact Or.inl ⟨e, hx, h.symm.trans hx⟩
  | ok a => exact Or.inr ⟨a, a, hx, h.symm.trans hx, hR a⟩

theorem refl (x : Logged α) : RelatedBy Eq x x := of_eq (fun _ => rfl) rfl

theorem ofExcept {R : α → γ → Prop} {x : Except Failure α} {y : Except Failure γ}
    (h : (∃ e, x = .error e ∧ y = .error e) ∨ ∃ a c, x = .ok a ∧ y = .ok c ∧ R a c) :
    RelatedBy R (Logged.ofExcept x) (Logged.ofExcept y) := h

theorem mono {R S : α → γ → Prop} {x : Logged α} {y : Logged γ} (hRS : ∀ a c, R a c → S a c) (h : RelatedBy R x y) :
    RelatedBy S x y :=
  h.imp_right fun ⟨a, c, hx, hy, hac⟩ => ⟨a, c, hx, hy, hRS a c hac⟩

theorem outcome_eq {x y : Logged α} (h : RelatedBy Eq x y) : x.outcome = y.outcome := by
  rcases h with ⟨e, hx, hy⟩ | ⟨a, c, hx, hy, rfl⟩
  · rw [hx, hy]
  · rw [hx, hy]

/-- What goes on alike after related results ends alike. -/
theorem bind {R : α → γ → Prop} {S : β → δ → Prop} {x : Logged α} {y : Logged γ} {f : α → Logged β} {g : γ → Logged δ}
    (h : RelatedBy R x y)
    (hf : ∀ a c, x.outcome = .ok a → y.outcome = .ok c → R a c → RelatedBy S (f a) (g c)) :
    RelatedBy S (x >>= f) (y >>= g) := by
  rcases h with ⟨e, hx, hy⟩ | ⟨a, c, hx, hy, hac⟩
  · left
    exact ⟨e, by rw [outcome_bind, hx]; rfl, by rw [outcome_bind, hy]; rfl⟩
  · have hx' : (x >>= f).outcome = (f a).outcome := by rw [outcome_bind, hx]; rfl
    have hy' : (y >>= g).outcome = (g c).outcome := by rw [outcome_bind, hy]; rfl
    rw [RelatedBy, hx', hy']
    exact hf a c hx hy hac

/-- What goes on alike after the same result ends alike. -/
theorem bind_of_eq {S : β → δ → Prop} {x y : Logged α} {f : α → Logged β} {g : α → Logged δ} (h : x.outcome = y.outcome)
    (hf : ∀ a, x.outcome = .ok a → RelatedBy S (f a) (g a)) : RelatedBy S (x >>= f) (y >>= g) := by
  refine bind (of_eq (fun _ => rfl) h) fun a c ha _ (hac : a = c) => ?_
  rw [← hac]
  exact hf a ha

/-- Computations on the members of a list that end alike on each member end alike on the list, when lists in a row are related
as their parts are. -/
theorem collect {R : List β → List δ → Prop} (hnil : R [] [])
    (happend : ∀ {as bs as' bs'}, R as bs → R as' bs' → R (as ++ as') (bs ++ bs')) {f : α → Logged (List β)}
    {g : α → Logged (List δ)} {l : List α} (h : ∀ a ∈ l, RelatedBy R (f a) (g a)) :
    RelatedBy R (collect f l) (collect g l) := by
  induction l with
  | nil => exact Or.inr ⟨[], [], rfl, rfl, hnil⟩
  | cons a rest ih =>
    refine bind (h a List.mem_cons_self) fun as bs _ _ hab => ?_
    refine bind (ih fun x hx => h x (List.mem_cons_of_mem _ hx)) fun as' bs' _ _ hab' => ?_
    exact Or.inr ⟨as ++ as', bs ++ bs', rfl, rfl, happend hab hab'⟩

end RelatedBy

namespace AgreeOn

variable {keep : β → Bool}

theorem of_eq {x y : Logged (List β)} (h : x.outcome = y.outcome) : AgreeOn keep x y :=
  RelatedBy.of_eq (R := SameOn keep) (fun _ => rfl) h

/-- Computations that succeed with none of the members agree on them. -/
theorem of_none {x y : Logged (List β)} {bs cs : List β} (hx : x.outcome = .ok bs) (hy : y.outcome = .ok cs)
    (hbs : ∀ b ∈ bs, keep b = false) (hcs : ∀ c ∈ cs, keep c = false) : AgreeOn keep x y := by
  refine Or.inr ⟨bs, cs, hx, hy, ?_⟩
  rw [SameOn, List.filter_eq_nil_iff.2 fun b hb => by simp [hbs b hb], List.filter_eq_nil_iff.2 fun c hc => by simp [hcs c hc]]

/-- Computations that agree on each member of a list agree on the list. -/
theorem collect {f g : α → Logged (List β)} {l : List α} (h : ∀ a ∈ l, AgreeOn keep (f a) (g a)) :
    AgreeOn keep (collect f l) (collect g l) := by
  refine RelatedBy.collect (R := SameOn keep) rfl (fun {as bs as' bs'} hab hab' => ?_) h
  rw [SameOn] at hab hab' ⊢
  rw [List.filter_append, List.filter_append, hab, hab']

end AgreeOn

end Logged

end WorkspaceLint

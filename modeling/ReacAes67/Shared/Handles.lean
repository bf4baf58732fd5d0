import Mathlib.Order.BooleanAlgebra.Set

set_option autoImplicit false

/-!
# Handles

A program opens handles, uses them and closes them. A run of such events is
legal when only closed handles are opened and only open ones are used or closed.
-/

namespace Handles

variable {ι ο μ : Type}

inductive Event (ι ο μ : Type) where
  | opened (h : ι) (as : ο)
  | used (h : ι) (what : μ)
  | closed (h : ι)
deriving DecidableEq, Repr

/-- A legal run, with the handles that are open before it and after it. -/
inductive Runs : Set ι → List (Event ι ο μ) → Set ι → Prop
  | nil {S : Set ι} : Runs S [] S
  | opened {S T : Set ι} {h : ι} {as : ο} {events : List (Event ι ο μ)} (fresh : h ∉ S)
      (rest : Runs (insert h S) events T) : Runs S (.opened h as :: events) T
  | used {S T : Set ι} {h : ι} {what : μ} {events : List (Event ι ο μ)} (isOpen : h ∈ S)
      (rest : Runs S events T) : Runs S (.used h what :: events) T
  | closed {S T : Set ι} {h : ι} {events : List (Event ι ο μ)} (isOpen : h ∈ S)
      (rest : Runs (S \ {h}) events T) : Runs S (.closed h :: events) T

section Runs

variable {S T U : Set ι} {before after : List (Event ι ο μ)}

theorem Runs.append (first : Runs S before T) (second : Runs T after U) : Runs S (before ++ after) U := by
  induction first with
  | nil => exact second
  | opened fresh _ ih => exact .opened fresh (ih second)
  | used isOpen _ ih => exact .used isOpen (ih second)
  | closed isOpen _ ih => exact .closed isOpen (ih second)

theorem Runs.split (run : Runs S (before ++ after) U) : ∃ T, Runs S before T ∧ Runs T after U := by
  induction before generalizing S with
  | nil => exact ⟨S, .nil, run⟩
  | cons event before ih =>
    cases run with
    | opened fresh rest =>
      obtain ⟨T, first, second⟩ := ih rest
      exact ⟨T, .opened fresh first, second⟩
    | used isOpen rest =>
      obtain ⟨T, first, second⟩ := ih rest
      exact ⟨T, .used isOpen first, second⟩
    | closed isOpen rest =>
      obtain ⟨T, first, second⟩ := ih rest
      exact ⟨T, .closed isOpen first, second⟩

/-- Events that only use handles out of `S`. -/
def UsesOnly (S : Set ι) (events : List (Event ι ο μ)) : Prop :=
  ∀ event ∈ events, ∃ h ∈ S, ∃ what, event = .used h what

theorem UsesOnly.runs {events : List (Event ι ο μ)} (uses : UsesOnly S events) : Runs S events S := by
  induction events with
  | nil => exact .nil
  | cons event events ih =>
    obtain ⟨h, isOpen, what, rfl⟩ := uses _ List.mem_cons_self
    exact .used isOpen (ih fun later member => uses later (List.mem_cons_of_mem _ member))

theorem UsesOnly.append (first : UsesOnly S before) (second : UsesOnly S after) :
    UsesOnly S (before ++ after) := List.forall_mem_append.mpr ⟨first, second⟩

theorem UsesOnly.mono {events : List (Event ι ο μ)} (uses : UsesOnly S events) (more : S ⊆ T) :
    UsesOnly T events := fun event member =>
  let ⟨h, isOpen, what, same⟩ := uses event member
  ⟨h, more isOpen, what, same⟩

/-- A handle that is open only while `events` run. -/
theorem Runs.bracket {h : ι} {as : ο} {events : List (Event ι ο μ)} (fresh : h ∉ S)
    (inside : Runs (insert h S) events (insert h S)) : Runs S (.opened h as :: events ++ [.closed h]) S := by
  have close : Runs (insert h S) ([.closed h] : List (Event ι ο μ)) S := by
    refine .closed (Set.mem_insert h S) ?_
    rw [Set.insert_sdiff_self_of_notMem fresh]
    exact .nil
  exact .opened fresh (inside.append close)

-- Every handle is opened and put to use before the next one is opened.
theorem Runs.openAll {κ : Type} {ks : List κ} {handle : κ → ι} (as : κ → ο) {uses : κ → List (Event ι ο μ)}
    (own : ∀ k, UsesOnly {handle k} (uses k)) (distinct : (ks.map handle).Nodup)
    (fresh : ∀ k ∈ ks, handle k ∉ S) :
    Runs S (ks.flatMap fun k => .opened (handle k) (as k) :: uses k) (S ∪ {h | h ∈ ks.map handle}) := by
  induction ks generalizing S with
  | nil =>
    have none : S ∪ {h | h ∈ ([] : List κ).map handle} = S := by simp
    rw [none]
    exact .nil
  | cons k ks ih =>
    obtain ⟨notLater, distinct⟩ := List.nodup_cons.mp distinct
    have later : ∀ j ∈ ks, handle j ∉ insert (handle k) S := by
      rintro j member (same | inside)
      · exact notLater (List.mem_map.mpr ⟨j, member, same⟩)
      · exact fresh j (List.mem_cons_of_mem k member) inside
    have rest := ih distinct later
    have reached : insert (handle k) S ∪ {h | h ∈ ks.map handle} = S ∪ {h | h ∈ (k :: ks).map handle} := by
      ext h
      simp only [Set.mem_union, Set.mem_insert_iff, Set.mem_ofPred_eq, List.map_cons, List.mem_cons]
      tauto
    rw [reached] at rest
    have use : Runs (insert (handle k) S) (uses k) (insert (handle k) S) :=
      ((own k).mono (Set.singleton_subset_iff.mpr (Set.mem_insert (handle k) S))).runs
    exact .opened (fresh k List.mem_cons_self) (use.append rest)

theorem Runs.closeAll {hs : List ι} (distinct : hs.Nodup) (fresh : ∀ h ∈ hs, h ∉ S) :
    Runs (S ∪ {h | h ∈ hs}) (hs.map .closed : List (Event ι ο μ)) S := by
  induction hs generalizing S with
  | nil =>
    have none : S ∪ {h | h ∈ ([] : List ι)} = S := by simp
    rw [none]
    exact .nil
  | cons h hs ih =>
    obtain ⟨notLater, distinct⟩ := List.nodup_cons.mp distinct
    refine .closed (by simp) ?_
    have left : (S ∪ {k | k ∈ h :: hs}) \ {h} = S ∪ {k | k ∈ hs} := by
      ext k
      by_cases same : k = h
      next =>
        subst same
        simp [fresh k List.mem_cons_self, notLater]
      next => simp [same]
    rw [left]
    exact ih distinct fun k member => fresh k (List.mem_cons_of_mem h member)

end Runs

section Count

variable [DecidableEq ι]

-- What a handle is used for, in order.
def usesOf (h : ι) (events : List (Event ι ο μ)) : List μ :=
  events.filterMap fun
    | .used k what => if k = h then some what else none
    | _ => none

@[simp] theorem usesOf_nil (h : ι) : usesOf h ([] : List (Event ι ο μ)) = [] := rfl

@[simp] theorem usesOf_append (h : ι) (before after : List (Event ι ο μ)) :
    usesOf h (before ++ after) = usesOf h before ++ usesOf h after := List.filterMap_append

theorem usesOf_flatMap {κ : Type} (h : ι) (ks : List κ) (events : κ → List (Event ι ο μ)) :
    usesOf h (ks.flatMap events) = ks.flatMap fun k => usesOf h (events k) := List.filterMap_flatMap

@[simp] theorem usesOf_opened (h k : ι) (as : ο) (events : List (Event ι ο μ)) :
    usesOf h (.opened k as :: events) = usesOf h events := rfl

@[simp] theorem usesOf_closed (h k : ι) (events : List (Event ι ο μ)) :
    usesOf h (.closed k :: events) = usesOf h events := rfl

theorem usesOf_used (h k : ι) (what : μ) (events : List (Event ι ο μ)) :
    usesOf h (.used k what :: events) = if k = h then what :: usesOf h events else usesOf h events := by
  by_cases same : k = h <;> simp [usesOf, same]

@[simp] theorem usesOf_map_closed (h : ι) (hs : List ι) :
    usesOf h (hs.map .closed : List (Event ι ο μ)) = [] := by
  simp [usesOf]

theorem UsesOnly.usesOf_other {S : Set ι} {events : List (Event ι ο μ)} (uses : UsesOnly S events) {h : ι}
    (other : h ∉ S) : usesOf h events = [] := by
  rw [usesOf, List.filterMap_eq_nil_iff]
  intro event member
  obtain ⟨k, inside, what, rfl⟩ := uses event member
  have different : k ≠ h := by
    rintro rfl
    exact other inside
  exact if_neg different

-- As what a handle is opened, in order.
def openingsOf (h : ι) (events : List (Event ι ο μ)) : List ο :=
  events.filterMap fun
    | .opened k as => if k = h then some as else none
    | _ => none

@[simp] theorem openingsOf_nil (h : ι) : openingsOf h ([] : List (Event ι ο μ)) = [] := rfl

@[simp] theorem openingsOf_append (h : ι) (before after : List (Event ι ο μ)) :
    openingsOf h (before ++ after) = openingsOf h before ++ openingsOf h after := List.filterMap_append

theorem openingsOf_flatMap {κ : Type} (h : ι) (ks : List κ) (events : κ → List (Event ι ο μ)) :
    openingsOf h (ks.flatMap events) = ks.flatMap fun k => openingsOf h (events k) := List.filterMap_flatMap

theorem openingsOf_opened (h k : ι) (as : ο) (events : List (Event ι ο μ)) :
    openingsOf h (.opened k as :: events) =
      if k = h then as :: openingsOf h events else openingsOf h events := by
  by_cases same : k = h <;> simp [openingsOf, same]

@[simp] theorem openingsOf_used (h k : ι) (what : μ) (events : List (Event ι ο μ)) :
    openingsOf h (.used k what :: events) = openingsOf h events := rfl

@[simp] theorem openingsOf_closed (h k : ι) (events : List (Event ι ο μ)) :
    openingsOf h (.closed k :: events) = openingsOf h events := rfl

@[simp] theorem openingsOf_map_closed (h : ι) (hs : List ι) :
    openingsOf h (hs.map .closed : List (Event ι ο μ)) = [] := by
  simp [openingsOf]

/-- What is never opened is never used. -/
theorem Runs.unused {S T : Set ι} {events : List (Event ι ο μ)} (run : Runs S events T) {h : ι}
    (closed : h ∉ S) (never : openingsOf h events = []) : usesOf h events = [] := by
  induction run with
  | nil => rfl
  | @opened S T k _ events _ _ ih =>
    rw [openingsOf_opened] at never
    by_cases same : k = h
    next =>
      rw [if_pos same] at never
      cases never
    next =>
      rw [if_neg same] at never
      exact ih (fun inside => inside.elim (fun eq => same eq.symm) closed) never
  | @used S T k _ events isOpen _ ih =>
    have other : k ≠ h := by
      rintro rfl
      exact closed isOpen
    rw [usesOf_used, if_neg other]
    exact ih closed never
  | closed _ _ ih => exact ih (fun inside => closed inside.1) never

theorem UsesOnly.openingsOf {S : Set ι} {events : List (Event ι ο μ)} (uses : UsesOnly S events)
    (h : ι) : openingsOf h events = [] := by
  rw [Handles.openingsOf, List.filterMap_eq_nil_iff]
  intro event member
  obtain ⟨_, _, _, rfl⟩ := uses event member
  rfl

theorem openingsOf_bracket {T : Set ι} {h k : ι} (as : ο) {events : List (Event ι ο μ)} (other : k ≠ h)
    (uses : UsesOnly T events) : openingsOf h (.opened k as :: events ++ [.closed k]) = [] := by
  rw [List.cons_append, openingsOf_opened, if_neg other, openingsOf_append, uses.openingsOf h]
  rfl

def opens (h : ι) (events : List (Event ι ο μ)) : Nat :=
  events.countP fun
    | .opened k _ => k = h
    | _ => false

def closes (h : ι) (events : List (Event ι ο μ)) : Nat :=
  events.countP fun
    | .closed k => k = h
    | _ => false

open Classical in
/-- A handle is opened and closed in turns. -/
theorem Runs.balance {S T : Set ι} {events : List (Event ι ο μ)} (run : Runs S events T) (h : ι) :
    opens h events + (if h ∈ S then 1 else 0) = closes h events + if h ∈ T then 1 else 0 := by
  induction run with
  | nil => simp [opens, closes]
  | @opened S T k _ events fresh _ ih =>
    by_cases same : k = h
    next =>
      subst same
      simp only [opens, closes, List.countP_cons, Set.mem_insert_iff, true_or, if_true, fresh] at ih ⊢
      simp
      omega
    next =>
      have other : h ≠ k := fun eq => same eq.symm
      simpa [opens, closes, same, other] using ih
  | used _ _ ih => simpa [opens, closes] using ih
  | @closed S T k events isOpen _ ih =>
    by_cases same : k = h
    next =>
      subst same
      simp only [opens, closes, List.countP_cons, Set.mem_sdiff, Set.mem_singleton_iff, not_true, and_false,
        if_false, isOpen, if_true] at ih ⊢
      simp
      omega
    next =>
      have other : h ≠ k := fun eq => same eq.symm
      simpa [opens, closes, same, other] using ih

/-- In a run from nothing to nothing every handle is closed as often as it is opened, and it is open
whenever it is used. -/
theorem Runs.accounts {events : List (Event ι ο μ)} (run : Runs ∅ events ∅) (h : ι) :
    opens h events = closes h events ∧
      ∀ before what after, events = before ++ .used h what :: after →
        opens h before = closes h before + 1 := by
  constructor
  next => simpa using run.balance h
  next =>
    rintro before what after rfl
    obtain ⟨T, first, second⟩ := run.split
    have balance := first.balance h
    cases second with
    | used isOpen _ => simpa [isOpen] using balance

end Count

end Handles

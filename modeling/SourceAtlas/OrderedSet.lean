/-
# SourceAtlas.OrderedSet — finite sets listed in increasing order.

A set is its own listing: a list in which every element is smaller than all later ones.  Nothing of
the order in which elements came, or of how often, can therefore show in a listing, and two sets
with the same members are equal (`OrderedSet.ext_mem`).
-/

namespace SourceAtlas

/-- A strict linear order that can be decided. -/
class StrictLinear (α : Type) extends LT α where
  decideLt : DecidableRel (α := α) (· < ·)
  lt_irrefl : ∀ a : α, ¬ a < a
  lt_trans : ∀ {a b c : α}, a < b → b < c → a < c
  lt_connex : ∀ a b : α, a < b ∨ a = b ∨ b < a

instance StrictLinear.decidableLt (α : Type) [StrictLinear α] : DecidableRel (α := α) (· < ·) :=
  StrictLinear.decideLt

/-- Strings are ordered by code points. -/
instance : StrictLinear String where
  decideLt := inferInstance
  lt_irrefl := String.lt_irrefl
  lt_trans := String.lt_trans
  lt_connex a b := by
    by_cases hab : a < b
    · exact Or.inl hab
    · by_cases hba : b < a
      · exact Or.inr (Or.inr hba)
      · exact Or.inr (Or.inl (String.le_antisymm (String.not_lt.mp hba) (String.not_lt.mp hab)))

/-- A type whose elements are told apart by two keys is ordered by the first key, then by the
second. -/
@[reducible]
def StrictLinear.byKeys {α β γ : Type} [StrictLinear β] [StrictLinear γ] (first : α → β)
    (second : α → γ) (inj : ∀ {a b : α}, first a = first b → second a = second b → a = b) :
    StrictLinear α where
  lt a b := first a < first b ∨ (first a = first b ∧ second a < second b)
  decideLt a b :=
    if h : first a < first b then isTrue (Or.inl h)
    else if h' : second a < second b then
      if hba : first b < first a then
        isFalse fun hab => hab.elim h fun e => StrictLinear.lt_irrefl _ (e.1 ▸ hba)
      else
        isTrue (Or.inr ⟨((StrictLinear.lt_connex (first a) (first b)).resolve_left h).resolve_right
          hba, h'⟩)
    else isFalse fun hab => hab.elim h fun e => h' e.2
  lt_irrefl a h := h.elim (StrictLinear.lt_irrefl _) fun e => StrictLinear.lt_irrefl _ e.2
  lt_trans := by
    rintro a b c (hab | ⟨hab, hab'⟩) (hbc | ⟨hbc, hbc'⟩)
    · exact Or.inl (StrictLinear.lt_trans hab hbc)
    · exact Or.inl (hbc ▸ hab)
    · exact Or.inl (hab ▸ hbc)
    · exact Or.inr ⟨hab.trans hbc, StrictLinear.lt_trans hab' hbc'⟩
  lt_connex a b := by
    rcases StrictLinear.lt_connex (first a) (first b) with h | h | h
    · exact Or.inl (Or.inl h)
    · rcases StrictLinear.lt_connex (second a) (second b) with h' | h' | h'
      · exact Or.inl (Or.inr ⟨h, h'⟩)
      · exact Or.inr (Or.inl (inj h h'))
      · exact Or.inr (Or.inr (Or.inr ⟨h.symm, h'⟩))
    · exact Or.inr (Or.inr (Or.inl h))

/-- A finite set, given by its elements in increasing order. -/
structure OrderedSet (α : Type) [StrictLinear α] where
  toList : List α
  increasing : toList.Pairwise (· < ·)

namespace OrderedSet

variable {α : Type} [StrictLinear α]

/-- Put an element at its place in an increasing list. -/
def insertSorted (a : α) : List α → List α
  | [] => [a]
  | b :: rest =>
    if a < b then a :: b :: rest else if b < a then b :: insertSorted a rest else b :: rest

theorem mem_insertSorted {a x : α} {l : List α} : x ∈ insertSorted a l ↔ x = a ∨ x ∈ l := by
  induction l with
  | nil => simp [insertSorted]
  | cons b rest ih =>
    simp only [insertSorted]
    split
    · simp
    · split
      · simp only [List.mem_cons, ih]
        exact or_left_comm
      · rename_i hab hba
        have : a = b :=
          ((StrictLinear.lt_connex a b).resolve_left hab).resolve_right hba
        subst this
        simp

theorem pairwise_insertSorted {a : α} {l : List α} (h : l.Pairwise (· < ·)) :
    (insertSorted a l).Pairwise (· < ·) := by
  induction l with
  | nil => simp [insertSorted]
  | cons b rest ih =>
    obtain ⟨hb, hrest⟩ := List.pairwise_cons.mp h
    simp only [insertSorted]
    split
    · rename_i hab
      refine List.pairwise_cons.mpr ⟨fun x hx => ?_, h⟩
      rcases List.mem_cons.mp hx with rfl | hx
      · exact hab
      · exact StrictLinear.lt_trans hab (hb x hx)
    · split
      · rename_i hba
        refine List.pairwise_cons.mpr ⟨fun x hx => ?_, ih hrest⟩
        rcases mem_insertSorted.mp hx with rfl | hx
        · exact hba
        · exact hb x hx
      · exact h

/-- The set without elements. -/
def empty : OrderedSet α := ⟨[], List.Pairwise.nil⟩

instance : EmptyCollection (OrderedSet α) := ⟨empty⟩

instance : Inhabited (OrderedSet α) := ⟨empty⟩

instance : Membership α (OrderedSet α) := ⟨fun s a => a ∈ s.toList⟩

/-- The set with one more element. -/
def insert (s : OrderedSet α) (a : α) : OrderedSet α :=
  ⟨insertSorted a s.toList, pairwise_insertSorted s.increasing⟩

/-- The set of the elements of a list. -/
def ofList (l : List α) : OrderedSet α :=
  l.foldl insert empty

/-- The set of the elements of either set. -/
def union (s t : OrderedSet α) : OrderedSet α :=
  t.toList.foldl insert s

/-- The elements that pass a test. -/
def filter (s : OrderedSet α) (keep : α → Bool) : OrderedSet α :=
  ⟨s.toList.filter keep, s.increasing.filter keep⟩

/-- Whether the element is in the set. -/
def contains [BEq α] (s : OrderedSet α) (a : α) : Bool :=
  s.toList.contains a

/-- The number of elements. -/
def size (s : OrderedSet α) : Nat :=
  s.toList.length

/-- Whether there is no element. -/
def isEmpty (s : OrderedSet α) : Bool :=
  s.toList.isEmpty

@[simp] theorem mem_def {s : OrderedSet α} {a : α} : a ∈ s ↔ a ∈ s.toList := Iff.rfl

theorem mem_insert {s : OrderedSet α} {a x : α} : x ∈ s.insert a ↔ x = a ∨ x ∈ s :=
  mem_insertSorted

theorem mem_foldl_insert {l : List α} {s : OrderedSet α} {x : α} :
    x ∈ l.foldl insert s ↔ x ∈ l ∨ x ∈ s := by
  induction l generalizing s with
  | nil => simp
  | cons a rest ih =>
    rw [List.foldl_cons, ih, mem_insert, List.mem_cons]
    constructor
    · rintro (h | h | h)
      · exact Or.inl (Or.inr h)
      · exact Or.inl (Or.inl h)
      · exact Or.inr h
    · rintro ((h | h) | h)
      · exact Or.inr (Or.inl h)
      · exact Or.inl h
      · exact Or.inr (Or.inr h)

theorem mem_ofList {l : List α} {x : α} : x ∈ ofList l ↔ x ∈ l := by
  rw [ofList, mem_foldl_insert]
  simp [empty]

theorem mem_union {s t : OrderedSet α} {x : α} : x ∈ s.union t ↔ x ∈ s ∨ x ∈ t := by
  rw [union, mem_foldl_insert]
  exact or_comm

theorem mem_filter {s : OrderedSet α} {keep : α → Bool} {x : α} :
    x ∈ s.filter keep ↔ x ∈ s ∧ keep x = true := by
  simp [filter]

/-- The elements of an increasing list are distinct. -/
theorem nodup_of_increasing {l : List α} (h : l.Pairwise (· < ·)) : l.Nodup := by
  refine h.imp fun {a b} hlt heq => ?_
  rw [heq] at hlt
  exact StrictLinear.lt_irrefl b hlt

/-- Increasing lists with the same members are equal. -/
theorem eq_of_increasing {l m : List α} (hl : l.Pairwise (· < ·)) (hm : m.Pairwise (· < ·))
    (h : ∀ x, x ∈ l ↔ x ∈ m) : l = m := by
  induction l generalizing m with
  | nil =>
    cases m with
    | nil => rfl
    | cons b m => exact absurd ((h b).mpr List.mem_cons_self) List.not_mem_nil
  | cons a l ih =>
    cases m with
    | nil => exact absurd ((h a).mp List.mem_cons_self) List.not_mem_nil
    | cons b m =>
      obtain ⟨ha, hl'⟩ := List.pairwise_cons.mp hl
      obtain ⟨hb, hm'⟩ := List.pairwise_cons.mp hm
      have hab : a = b := by
        rcases List.mem_cons.mp ((h a).mp List.mem_cons_self) with e | e
        · exact e
        · rcases List.mem_cons.mp ((h b).mpr List.mem_cons_self) with e' | e'
          · exact e'.symm
          · exact absurd (StrictLinear.lt_trans (ha b e') (hb a e)) (StrictLinear.lt_irrefl a)
      subst hab
      refine congrArg (a :: ·) (ih hl' hm' fun x => ⟨fun hx => ?_, fun hx => ?_⟩)
      · rcases List.mem_cons.mp ((h x).mp (List.mem_cons_of_mem _ hx)) with rfl | hx'
        · exact absurd (ha _ hx) (StrictLinear.lt_irrefl _)
        · exact hx'
      · rcases List.mem_cons.mp ((h x).mpr (List.mem_cons_of_mem _ hx)) with rfl | hx'
        · exact absurd (hb _ hx) (StrictLinear.lt_irrefl _)
        · exact hx'

theorem ext_mem {s t : OrderedSet α} (h : ∀ x, x ∈ s ↔ x ∈ t) : s = t := by
  have : s.toList = t.toList := eq_of_increasing s.increasing t.increasing h
  cases s
  cases t
  cases this
  rfl

end OrderedSet

/-- A set of names. -/
abbrev NameSet := OrderedSet String

end SourceAtlas

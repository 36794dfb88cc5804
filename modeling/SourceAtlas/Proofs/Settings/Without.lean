/-
# SourceAtlas.Proofs.Settings.Without — a mapping of settings with one setting deleted.

Deleting a setting takes away every entry under one of its spellings, in the mapping that holds the
settings: the nested one, which is put back under its name, or the whole.  No two settings share a
spelling, and no spelling is a name that settings may stand under, so a deletion is seen at the
deleted setting alone (`pick?_without`).
-/
import SourceAtlas.Proofs.Keyed
import SourceAtlas.Settings.Apply

namespace SourceAtlas.Settings

/-! ## Spellings and names -/

/-- No two settings share a spelling. -/
theorem eq_of_mem_spellings {setting other : Setting} {key : String}
    (h : key ∈ spellings setting) (h' : key ∈ spellings other) : setting = other := by
  cases setting <;> cases other <;>
    first
    | rfl
    | (simp only [spellings, List.mem_cons, List.not_mem_nil, or_false] at h h'
       rcases h with rfl | rfl <;> simp at h')

/-- No setting is spelled like a name that settings may stand under. -/
theorem not_mem_spellings_of_mem_namespaces {setting : Setting} {name : String}
    (h : name ∈ namespaces) : name ∉ spellings setting := by
  simp only [namespaces, List.mem_cons, List.not_mem_nil, or_false] at h
  rcases h with rfl | rfl | rfl <;> cases setting <;> simp [spellings]

/-! ## Lookups -/

/-- The text that a key is, if it is one. -/
def keyText? : Value → Option String
  | .text key => some key
  | _ => none

@[simp] theorem keyText?_text (key : String) : keyText? (.text key) = some key := rfl

theorem lookup?_cons (key : String) (k value : Value) (rest : List (Value × Value)) :
    Value.lookup? key ((k, value) :: rest) =
      if keyText? k = some key then some value else Value.lookup? key rest := by
  cases k <;> simp [Value.lookup?, keyText?]

theorem sameKey_text (key : Value) (name : String) :
    key.sameKey (.text name) = true ↔ keyText? key = some name := by
  cases key <;> simp [Value.sameKey, Value.asInt?, keyText?]

/-- Under its name a value that is put is found. -/
theorem lookup?_put_self (name : String) (value : Value) (entries : List (Value × Value)) :
    Value.lookup? name (Value.put (.text name) value entries) = some value := by
  induction entries with
  | nil => simp [Value.put, lookup?_cons]
  | cons entry rest ih =>
      obtain ⟨k, old⟩ := entry
      by_cases hsame : keyText? k = some name
      · rw [Value.put, if_pos ((sameKey_text k name).mpr hsame), lookup?_cons, if_pos hsame]
      · rw [Value.put, if_neg fun h => hsame ((sameKey_text k name).mp h), lookup?_cons,
          if_neg hsame, ih]

/-- Under another name nothing changes. -/
theorem lookup?_put_of_ne {name key : String} (value : Value) (h : key ≠ name)
    (entries : List (Value × Value)) :
    Value.lookup? key (Value.put (.text name) value entries) = Value.lookup? key entries := by
  have hne : some name ≠ some key := fun heq => h (Option.some.inj heq).symm
  induction entries with
  | nil => rw [Value.put, lookup?_cons, keyText?_text, if_neg hne]
  | cons entry rest ih =>
      obtain ⟨k, old⟩ := entry
      by_cases hsame : keyText? k = some name
      · rw [Value.put, if_pos ((sameKey_text k name).mpr hsame), lookup?_cons, lookup?_cons, hsame,
          if_neg hne, if_neg hne]
      · rw [Value.put, if_neg fun h => hsame ((sameKey_text k name).mp h), lookup?_cons,
          lookup?_cons, ih]

/-! ## Entries without a setting -/

/-- Whether the key is a spelling of the setting. -/
def spells (setting : Setting) (key : Value) : Bool :=
  (keyText? key).any (spellings setting).contains

/-- The entries under other keys than the spellings of a setting. -/
def erase (setting : Setting) (entries : List (Value × Value)) : List (Value × Value) :=
  entries.filter fun entry => !spells setting entry.1

/-- Deleting a setting is seen under its spellings alone. -/
theorem lookup?_erase (setting : Setting) (key : String) (entries : List (Value × Value)) :
    Value.lookup? key (erase setting entries) =
      if key ∈ spellings setting then none else Value.lookup? key entries := by
  unfold erase
  induction entries with
  | nil => simp [Value.lookup?]
  | cons entry rest ih =>
      obtain ⟨k, value⟩ := entry
      rw [List.filter_cons, lookup?_cons]
      by_cases hkey : keyText? k = some key
      · by_cases hmem : key ∈ spellings setting
        · rw [if_neg (by simp [spells, hkey, hmem]), ih, if_pos hmem, if_pos hmem]
        · rw [if_pos (by simp [spells, hkey, hmem]), lookup?_cons, if_pos hkey, if_neg hmem,
            if_pos hkey]
      · rw [if_neg hkey]
        split
        · rw [lookup?_cons, if_neg hkey, ih]
        · exact ih

/-- Deleting a setting takes the value of that setting and of no other. -/
theorem pick?_erase (setting other : Setting) (entries : List (Value × Value)) :
    pick? (erase setting entries) other =
      if other = setting then none else pick? entries other := by
  unfold pick?
  by_cases heq : other = setting
  · subst heq
    have hnone : (spellings other).findSome? (Value.lookup? · (erase other entries)) = none := by
      rw [List.findSome?_eq_none_iff]
      intro key hkey
      rw [lookup?_erase, if_pos hkey]
    rw [hnone, if_pos rfl]
  · have hsame : (spellings other).findSome? (Value.lookup? · (erase setting entries)) =
        (spellings other).findSome? (Value.lookup? · entries) :=
      findSome?_congr fun key hkey => by
        rw [lookup?_erase, if_neg fun hmem => heq (eq_of_mem_spellings hkey hmem)]
    rw [hsame, if_neg heq]

/-! ## A mapping without a setting -/

/-- The mapping under a name, if there is a mapping. -/
def nested? (mapping : List (Value × Value)) (name : String) : Option (List (Value × Value)) :=
  match Value.lookup? name mapping with
  | some (.mapping entries) => some entries
  | _ => none

/-- The name that the settings stand under, if they do. -/
def home? (mapping : List (Value × Value)) : Option String :=
  namespaces.find? fun name => (nested? mapping name).isSome

/-- A mapping without a setting: its entries are deleted where the settings stand. -/
def without (setting : Setting) (mapping : List (Value × Value)) : List (Value × Value) :=
  match home? mapping with
  | some name => Value.put (.text name) (.mapping (erase setting (scope mapping))) mapping
  | none => erase setting mapping

theorem scope_of_home?_none {mapping : List (Value × Value)}
    (h : ∀ name ∈ namespaces, nested? mapping name = none) : scope mapping = mapping := by
  have hnone : namespaces.findSome? (nested? mapping) = none := List.findSome?_eq_none_iff.mpr h
  show (namespaces.findSome? (nested? mapping)).getD mapping = mapping
  rw [hnone]
  rfl

/-- The first name with a mapping decides. -/
theorem scope_of_first {mapping entries : List (Value × Value)} {before after : List String}
    {name : String} (hnames : namespaces = before ++ name :: after)
    (hbefore : ∀ other ∈ before, nested? mapping other = none)
    (hname : nested? mapping name = some entries) : scope mapping = entries := by
  have hsome : namespaces.findSome? (nested? mapping) = some entries :=
    List.findSome?_eq_some_iff.mpr ⟨before, name, after, hnames, hname, hbefore⟩
  show (namespaces.findSome? (nested? mapping)).getD mapping = entries
  rw [hsome]
  rfl

/-- The settings of a mapping without a setting are the settings of the mapping, without it. -/
theorem scope_without (setting : Setting) (mapping : List (Value × Value)) :
    scope (without setting mapping) = erase setting (scope mapping) := by
  unfold without
  cases hhome : home? mapping with
  | none =>
      have hnone : ∀ name ∈ namespaces, nested? mapping name = none := by
        intro name hname
        have := List.find?_eq_none.mp hhome name hname
        simpa using this
      have herased : ∀ name ∈ namespaces, nested? (erase setting mapping) name = none := by
        intro name hname
        unfold nested?
        rw [lookup?_erase, if_neg (not_mem_spellings_of_mem_namespaces hname)]
        exact hnone name hname
      rw [scope_of_home?_none hnone]
      exact scope_of_home?_none herased
  | some name =>
      obtain ⟨hnested, before, after, hnames, hbefore⟩ := List.find?_eq_some_iff_append.mp hhome
      obtain ⟨entries, hentries⟩ := Option.isSome_iff_exists.mp hnested
      have hfree : ∀ other ∈ before, nested? mapping other = none := by
        intro other hother
        simpa using hbefore other hother
      simp only [scope_of_first hnames hfree hentries]
      refine scope_of_first hnames (fun other hother => ?_) ?_
      · -- the names before the first one with a mapping differ from it
        have hne : other ≠ name := by
          rintro rfl
          rw [hfree other hother] at hentries
          cases hentries
        unfold nested?
        rw [lookup?_put_of_ne _ hne]
        exact hfree other hother
      · unfold nested?
        rw [lookup?_put_self]

/-- **Without a setting a mapping gives the values of the other settings.** -/
theorem pick?_without (setting other : Setting) (mapping : List (Value × Value)) :
    pick? (scope (without setting mapping)) other =
      if other = setting then none else pick? (scope mapping) other := by
  rw [scope_without, pick?_erase]

end SourceAtlas.Settings

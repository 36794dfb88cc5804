/-
# SourceAtlas.Proofs.ImportGraph.Memory — a graph keeps its objects to itself.

A graph in memory lays out its tables over objects that belong to it, and what it has given away is
kept apart from these: nothing that was given away belongs to the graph or leads to what does
(`Memory.Keeps`).  Every call keeps this up and never fails (`exists_step?`): adding changes the
tables as it should, and neither a question nor any change of what was given away changes them at
all.
-/
import SourceAtlas.Proofs.ImportGraph.Tables

namespace SourceAtlas.ImportGraph

/-! ## Flat objects -/

/-- **`IsFlat object`** — an object is a set or a list, and leads nowhere. -/
def Object.IsFlat : Object → Prop
  | .table _ => False
  | _ => True

theorem Object.IsFlat.references {object : Object} (h : object.IsFlat) : object.references = [] := by
  cases object with
  | table rows => cases h
  | _ => rfl

/-- **`IsFlat answer`** — an answer is a value, a flat object, or a table of flat objects. -/
def Answer.IsFlat : Answer → Prop
  | .object content => content.IsFlat
  | .table rows => ∀ row ∈ rows, row.2.IsFlat
  | _ => True

namespace Memory

variable {memory memory' : Memory} {tables : Tables}

/-! ## Sets at addresses -/

section Sets

variable {address : Address} {names : NameSet}

theorem set?_of_getElem? (h : memory.objects[address]? = some (.set names)) :
    memory.set? address = some names := by
  unfold set?
  rw [h]

/-- A name can be put into a set that is there. -/
theorem insertInto?_of_getElem? (h : memory.objects[address]? = some (.set names)) (name : String) :
    memory.insertInto? address name =
      some { memory with objects := memory.objects.set address (.set (names.insert name)) } := by
  unfold insertInto?
  rw [set?_of_getElem? h]
  rfl

end Sets

/-! ## Rows of addresses -/

/-- **`RowAt objects row entry`** — the row of an address has the key and the set of an entry. -/
def RowAt (objects : List Object) (row : String × Address) (entry : String × NameSet) : Prop :=
  row.1 = entry.1 ∧ objects[row.2]? = some (.set entry.2)

variable {objects objects' : List Object} {rows : List (String × Address)}
  {entries : List (String × NameSet)}

/-- Rows stay as they are while their objects do. -/
theorem rowsAt_congr (h : List.Forall₂ (RowAt objects) rows entries)
    (hsame : ∀ address ∈ rows.map (·.2), objects'[address]? = objects[address]?) :
    List.Forall₂ (RowAt objects') rows entries := by
  induction h with
  | nil => exact List.Forall₂.nil
  | cons hrow _ ih =>
      obtain ⟨hfirst, hrest⟩ := List.forall_mem_cons.mp hsame
      exact List.Forall₂.cons ⟨hrow.1, hfirst.trans hrow.2⟩ (ih hrest)

theorem bound_of_rowsAt (h : List.Forall₂ (RowAt objects) rows entries) :
    ∀ address ∈ rows.map (·.2), address < objects.length := by
  induction h with
  | nil => simp
  | cons hrow _ ih =>
      exact List.forall_mem_cons.mpr ⟨(List.getElem?_eq_some_iff.mp hrow.2).1, ih⟩

/-- A step that finds something for each element finds all of it. -/
theorem mapM_of_forall₂ {α β : Type} {step : α → Option β} {l : List α} {results : List β}
    (h : List.Forall₂ (fun a b => step a = some b) l results) : l.mapM step = some results := by
  induction h with
  | nil => rfl
  | cons hstep _ ih =>
      rw [List.mapM_cons, hstep, ih]
      rfl

/-- Reading the rows gives their sets. -/
theorem mapM_of_rowsAt (h : List.Forall₂ (RowAt memory.objects) rows entries) :
    (rows.mapM fun row => do return (row.1, ← memory.set? row.2)) = some entries := by
  refine mapM_of_forall₂ (h.imp fun row entry hrow => ?_)
  rw [set?_of_getElem? hrow.2, hrow.1]
  rfl

/-- A name is put into the set of a row that is there. -/
theorem rowsAt_insertRow (h : List.Forall₂ (RowAt objects) rows entries)
    (hdistinct : (rows.map (·.2)).Nodup) {key : String} {address : Address}
    (hlookup : rows.lookup key = some address) (name : String) :
    address ∈ rows.map (·.2) ∧ ∃ names, objects[address]? = some (.set names) ∧
      List.Forall₂ (RowAt (objects.set address (.set (names.insert name)))) rows
        (Tables.insertRow key name entries) := by
  induction h with
  | nil => cases hlookup
  | @cons row entry rest restEntries hrow hrest ih =>
      obtain ⟨own, first⟩ := row
      obtain ⟨_, names⟩ := entry
      obtain ⟨rfl, hset⟩ := hrow
      obtain ⟨hfirst, hnodup⟩ := List.nodup_cons.mp hdistinct
      rw [List.lookup_cons] at hlookup
      by_cases hkey : own = key
      · subst hkey
        rw [beq_self_eq_true] at hlookup
        cases hlookup
        refine ⟨List.mem_cons_self, names, hset, ?_⟩
        rw [Tables.insertRow, if_pos rfl]
        refine List.Forall₂.cons ⟨rfl, ?_⟩ (rowsAt_congr hrest fun other hother => ?_)
        · exact List.getElem?_set_self (List.getElem?_eq_some_iff.mp hset).1
        · refine List.getElem?_set_ne fun heq => hfirst ?_
          show address ∈ _
          rw [heq]
          exact hother
      · rw [beq_false_of_ne (Ne.symm hkey)] at hlookup
        obtain ⟨hmem, names', hset', hrows⟩ := ih hnodup hlookup
        refine ⟨List.mem_cons_of_mem _ hmem, names', hset', ?_⟩
        rw [Tables.insertRow, if_neg hkey]
        refine List.Forall₂.cons ⟨rfl, ?_⟩ hrows
        rw [List.getElem?_set_ne fun heq : address = first => hfirst (heq ▸ hmem)]
        exact hset

/-- Without a row for it, a key gets one at the end. -/
theorem insertRow_of_lookup (h : List.Forall₂ (RowAt objects) rows entries) {key : String}
    (hlookup : rows.lookup key = none) (name : String) :
    Tables.insertRow key name entries = entries ++ [(key, OrderedSet.empty.insert name)] := by
  induction h with
  | nil => rfl
  | @cons row entry rest restEntries hrow _ ih =>
      obtain ⟨own, first⟩ := row
      obtain ⟨_, names⟩ := entry
      obtain ⟨rfl, -⟩ := hrow
      rw [List.lookup_cons] at hlookup
      by_cases hkey : own = key
      · rw [hkey, beq_self_eq_true] at hlookup
        cases hlookup
      · rw [beq_false_of_ne (Ne.symm hkey)] at hlookup
        rw [Tables.insertRow, if_neg hkey, ih hlookup]
        rfl

/-- **`Inserted objects objects' table rows entries'`** — an insertion into a table of some rows
gives it the entries `entries'`.  It touches the table and the sets of its rows alone, and a new row
has a new object. -/
structure Inserted (objects objects' : List Object) (table : Address)
    (rows rows' : List (String × Address)) (entries' : List (String × NameSet)) : Prop where
  tableAt : objects'[table]? = some (.table rows')
  rowsAt : List.Forall₂ (RowAt objects') rows' entries'
  frame : ∀ address < objects.length, address ≠ table → address ∉ rows.map (·.2) →
    objects'[address]? = objects[address]?
  addresses : rows'.map (·.2) = rows.map (·.2) ∨
    rows'.map (·.2) = rows.map (·.2) ++ [objects.length]
  grows : objects.length ≤ objects'.length

section Insertion

variable {table : Address} (htable : memory.objects[table]? = some (.table rows))
  (hrows : List.Forall₂ (RowAt memory.objects) rows entries)
  (hdistinct : (table :: rows.map (·.2)).Nodup)

include htable hrows hdistinct

/-- An insertion into a row that is there changes the set of that row. -/
theorem inserted_of_row {key : String} {address : Address}
    (hlookup : rows.lookup key = some address) (name : String) :
    ∃ names, memory.objects[address]? = some (.set names) ∧
      Inserted memory.objects (memory.objects.set address (.set (names.insert name))) table rows rows
        (Tables.insertRow key name entries) := by
  obtain ⟨hapart, hnodup⟩ := List.nodup_cons.mp hdistinct
  obtain ⟨hmem, names, hset, hinserted⟩ := rowsAt_insertRow hrows hnodup hlookup name
  have hne : address ≠ table := fun heq => hapart (heq ▸ hmem)
  refine ⟨names, hset, ?_, hinserted, ?_, Or.inl rfl, ?_⟩
  · rw [List.getElem?_set_ne hne]
    exact htable
  · intro other _ _ hother
    exact List.getElem?_set_ne fun heq : address = other => hother (heq ▸ hmem)
  · exact Nat.le_of_eq List.length_set.symm

/-- The objects after a new row for a key, whose set is at a new address. -/
theorem inserted_of_no_row {key : String} (hlookup : rows.lookup key = none) (name : String) :
    let fresh := memory.objects.length
    let grown := (memory.objects ++ [Object.set OrderedSet.empty]).set table
      (.table (rows ++ [(key, fresh)]))
    grown[fresh]? = some (.set OrderedSet.empty) ∧
      Inserted memory.objects (grown.set fresh (.set (OrderedSet.empty.insert name))) table rows
        (rows ++ [(key, fresh)]) (Tables.insertRow key name entries) := by
  intro fresh grown
  have hbound : table < fresh := (List.getElem?_eq_some_iff.mp htable).1
  have hne : table ≠ fresh := Nat.ne_of_lt hbound
  have hgrown : grown.length = fresh + 1 := by
    rw [List.length_set, List.length_append]
    rfl
  have hempty : grown[fresh]? = some (.set OrderedSet.empty) := by
    rw [List.getElem?_set_ne hne, List.getElem?_append_right (Nat.le_refl fresh), Nat.sub_self]
    rfl
  -- objects that were there before are the same, but for the table
  have hold : ∀ address < fresh, address ≠ table →
      (grown.set fresh (.set (OrderedSet.empty.insert name)))[address]? =
        memory.objects[address]? := by
    intro address hlt haddress
    rw [List.getElem?_set_ne (Nat.ne_of_gt hlt), List.getElem?_set_ne (Ne.symm haddress),
      List.getElem?_append_left hlt]
  refine ⟨hempty, ?_, ?_, fun address hlt haddress _ => hold address hlt haddress, Or.inr ?_, ?_⟩
  · rw [List.getElem?_set_ne hne.symm]
    refine List.getElem?_set_self ?_
    rw [List.length_append]
    exact Nat.lt_add_right 1 hbound
  · rw [insertRow_of_lookup hrows hlookup]
    refine List.rel_append (rowsAt_congr hrows fun address haddress => ?_)
      (List.Forall₂.cons ⟨rfl, ?_⟩ List.Forall₂.nil)
    · refine hold address (bound_of_rowsAt hrows address haddress) fun heq => ?_
      exact (List.nodup_cons.mp hdistinct).1 (heq ▸ haddress)
    · refine List.getElem?_set_self ?_
      omega
  · rw [List.map_append]
    rfl
  · rw [List.length_set]
    omega

/-- **A name can be put into the set of any key in a table of sets.** -/
theorem exists_insertAt? (key name : String) :
    ∃ objects' rows', memory.insertAt? table key name = some { memory with objects := objects' } ∧
      Inserted memory.objects objects' table rows rows' (Tables.insertRow key name entries) := by
  have hread : memory.table? table = some rows := by
    unfold table?
    rw [htable]
  unfold insertAt?
  simp only [hread, Option.bind_eq_bind, Option.bind_some]
  cases hlookup : rows.lookup key with
  | some address =>
      obtain ⟨names, hset, hinserted⟩ := inserted_of_row htable hrows hdistinct hlookup name
      exact ⟨_, rows, insertInto?_of_getElem? hset name, hinserted⟩
  | none =>
      obtain ⟨hset, hinserted⟩ := inserted_of_no_row htable hrows hdistinct hlookup name
      exact ⟨_, _, insertInto?_of_getElem? hset name, hinserted⟩

end Insertion

/-! ## What belongs to the graph -/

/-- The addresses that belong to a graph: its set, its two tables and the sets of their rows. -/
def own (memory : Memory) (edgeRows missingRows : List (String × Address)) : List Address :=
  memory.nodes :: memory.edges :: memory.missing ::
    (edgeRows.map (·.2) ++ missingRows.map (·.2))

/-- **`Lays memory edgeRows missingRows tables`** — tables are laid out over objects that belong to
the graph, each at an address of its own. -/
structure Lays (memory : Memory) (edgeRows missingRows : List (String × Address))
    (tables : Tables) : Prop where
  nodes : memory.objects[memory.nodes]? = some (.set tables.nodes)
  edges : memory.objects[memory.edges]? = some (.table edgeRows)
  missing : memory.objects[memory.missing]? = some (.table missingRows)
  edgeSets : List.Forall₂ (RowAt memory.objects) edgeRows tables.edges
  missingSets : List.Forall₂ (RowAt memory.objects) missingRows tables.missing
  distinct : (memory.own edgeRows missingRows).Nodup

variable {edgeRows missingRows : List (String × Address)}

/-- What belongs to the graph is in memory. -/
theorem Lays.bounded (h : Lays memory edgeRows missingRows tables) :
    ∀ address ∈ memory.own edgeRows missingRows, address < memory.objects.length := by
  unfold own
  simp only [List.forall_mem_cons, List.forall_mem_append]
  exact ⟨(List.getElem?_eq_some_iff.mp h.nodes).1, (List.getElem?_eq_some_iff.mp h.edges).1,
    (List.getElem?_eq_some_iff.mp h.missing).1, bound_of_rowsAt h.edgeSets,
    bound_of_rowsAt h.missingSets⟩

/-- The layout stays as it is while the objects that belong to the graph do. -/
theorem Lays.congr (h : Lays memory edgeRows missingRows tables) {given : List Address}
    (hsame : ∀ address ∈ memory.own edgeRows missingRows,
      objects[address]? = memory.objects[address]?) :
    Lays { memory with objects, given } edgeRows missingRows tables := by
  unfold own at hsame
  simp only [List.forall_mem_cons, List.forall_mem_append] at hsame
  obtain ⟨hnodes, hedges, hmissing, hedgeRows, hmissingRows⟩ := hsame
  exact ⟨hnodes.trans h.nodes, hedges.trans h.edges, hmissing.trans h.missing,
    rowsAt_congr h.edgeSets hedgeRows, rowsAt_congr h.missingSets hmissingRows, h.distinct⟩

/-- The tables that are laid out are the tables that are read. -/
theorem Lays.tables? (h : Lays memory edgeRows missingRows tables) :
    memory.tables? = some tables := by
  have hnodes := set?_of_getElem? h.nodes
  have hedges : memory.sets? memory.edges = some tables.edges := by
    unfold sets? table?
    rw [h.edges]
    exact mapM_of_rowsAt h.edgeSets
  have hmissing : memory.sets? memory.missing = some tables.missing := by
    unfold sets? table?
    rw [h.missing]
    exact mapM_of_rowsAt h.missingSets
  unfold Memory.tables?
  rw [hnodes, hedges, hmissing]
  rfl

/-! ## What was given away -/

/-- **`Seals memory addresses`** — nothing that was given away is at one of the addresses or leads
there. -/
structure Seals (memory : Memory) (addresses : List Address) : Prop where
  bounded : ∀ address ∈ memory.given, address < memory.objects.length
  apart : ∀ address ∈ addresses, address ∉ memory.given
  /-- What was given away leads only to what was given away. -/
  closed : ∀ address ∈ memory.given, ∀ object, memory.objects[address]? = some object →
    memory.IsForeign object

variable {addresses addresses' : List Address}

/-- Changes of the graph's own objects do not touch what was given away. -/
theorem Seals.congr (h : Seals memory addresses) (hgrows : memory.objects.length ≤ objects.length)
    (hsame : ∀ address < memory.objects.length, address ∉ addresses →
      objects[address]? = memory.objects[address]?)
    (haddresses : ∀ address ∈ addresses', address ∈ addresses ∨ memory.objects.length ≤ address) :
    Seals { memory with objects } addresses' where
  bounded address hgiven := Nat.lt_of_lt_of_le (h.bounded address hgiven) hgrows
  apart address haddress hgiven := by
    rcases haddresses address haddress with hown | hfresh
    · exact h.apart address hown hgiven
    · exact absurd (h.bounded address hgiven) (Nat.not_lt.mpr hfresh)
  closed address hgiven object hobject := by
    rw [hsame address (h.bounded address hgiven) fun hown => h.apart address hown hgiven] at hobject
    exact h.closed address hgiven object hobject

/-- **`Keeps memory tables`** — a graph in memory holds tables and keeps them to itself. -/
def Keeps (memory : Memory) (tables : Tables) : Prop :=
  ∃ edgeRows missingRows, Lays memory edgeRows missingRows tables ∧
    Seals memory (memory.own edgeRows missingRows)

theorem Keeps.tables? (h : Keeps memory tables) : memory.tables? = some tables := by
  obtain ⟨_, _, hlays, -⟩ := h
  exact hlays.tables?

theorem keeps_empty : Keeps empty Tables.empty := by
  refine ⟨[], [], ⟨rfl, rfl, rfl, .nil, .nil, by decide⟩, ?_, ?_, ?_⟩
  · intro address hgiven
    cases hgiven
  · intro address _ hgiven
    cases hgiven
  · intro address hgiven
    cases hgiven

/-! ## Adding -/

/-- A name can be put into the set of nodes. -/
theorem Keeps.exists_insertNode (h : Keeps memory tables) (node : String) :
    ∃ objects, memory.insertInto? memory.nodes node = some { memory with objects } ∧
      Keeps { memory with objects } (tables.addNode node) := by
  obtain ⟨edgeRows, missingRows, hlays, hseals⟩ := h
  obtain ⟨hapart, -⟩ := List.nodup_cons.mp hlays.distinct
  let objects := memory.objects.set memory.nodes (.set (tables.nodes.insert node))
  have hlength : objects.length = memory.objects.length := List.length_set
  have hsame : ∀ address, address ≠ memory.nodes →
      objects[address]? = memory.objects[address]? :=
    fun address hne => List.getElem?_set_ne (Ne.symm hne)
  have hrest : ∀ address ∈ memory.edges :: memory.missing ::
      (edgeRows.map (·.2) ++ missingRows.map (·.2)), objects[address]? = memory.objects[address]? :=
    fun address haddress => hsame address fun heq => hapart (heq ▸ haddress)
  simp only [List.forall_mem_cons, List.forall_mem_append] at hrest
  obtain ⟨hedges, hmissing, hedgeRows, hmissingRows⟩ := hrest
  refine ⟨objects, ?_, edgeRows, missingRows, ⟨?_, ?_, ?_, ?_, ?_, hlays.distinct⟩, ?_⟩
  · exact insertInto?_of_getElem? hlays.nodes node
  · exact List.getElem?_set_self (hlays.bounded _ List.mem_cons_self)
  · exact hedges.trans hlays.edges
  · exact hmissing.trans hlays.missing
  · exact rowsAt_congr hlays.edgeSets hedgeRows
  · exact rowsAt_congr hlays.missingSets hmissingRows
  · refine hseals.congr (Nat.le_of_eq hlength.symm) (fun address _ hown => ?_)
      fun address hown => Or.inl hown
    exact hsame address fun heq => hown (heq ▸ List.mem_cons_self)

/-- **`Added memory belongs objects table rows' others entries'`** — an insertion into a table gives
it the rows of the entries `entries'`.  It leaves alone the other addresses that belong to the
graph, and all that does not belong to it; what belongs to the graph is still at different
addresses, and what is new among it is at a new address. -/
structure Added (memory : Memory) (belongs : List Address) (objects : List Object) (table : Address)
    (rows' : List (String × Address)) (others : List Address)
    (entries' : List (String × NameSet)) : Prop where
  tableAt : objects[table]? = some (.table rows')
  rowsAt : List.Forall₂ (RowAt objects) rows' entries'
  same : ∀ address ∈ others, objects[address]? = memory.objects[address]?
  frame : ∀ address < memory.objects.length, address ∉ belongs →
    objects[address]? = memory.objects[address]?
  distinct : (table :: (rows'.map (·.2) ++ others)).Nodup
  fresh : ∀ address ∈ table :: (rows'.map (·.2) ++ others),
    address ∈ belongs ∨ memory.objects.length ≤ address
  grows : memory.objects.length ≤ objects.length

/-- A name can be put into a row of either table of the graph. -/
theorem exists_added {belongs others : List Address} {table : Address}
    (htable : memory.objects[table]? = some (.table rows))
    (hrows : List.Forall₂ (RowAt memory.objects) rows entries)
    (hperm : (table :: (rows.map (·.2) ++ others)).Perm belongs) (hdistinct : belongs.Nodup)
    (hbounded : ∀ address ∈ belongs, address < memory.objects.length) (key name : String) :
    ∃ objects rows', memory.insertAt? table key name = some { memory with objects } ∧
      Added memory belongs objects table rows' others (Tables.insertRow key name entries) := by
  have hnodup := hperm.nodup_iff.mpr hdistinct
  obtain ⟨objects, rows', hinsert, h⟩ := exists_insertAt? htable hrows
    (hnodup.sublist (List.Sublist.cons_cons _ (List.sublist_append_left _ _))) key name
  obtain ⟨hapart, hrest⟩ := List.nodup_cons.mp hnodup
  have hbelongs : ∀ address, address ∈ table :: (rows.map (·.2) ++ others) ↔ address ∈ belongs :=
    fun address => hperm.mem_iff
  refine ⟨objects, rows', hinsert, h.tableAt, h.rowsAt, ?_, ?_, ?_, ?_, h.grows⟩
  · intro address haddress
    have hmem := List.mem_append_right (rows.map (·.2)) haddress
    refine h.frame address (hbounded address ((hbelongs address).mp (List.mem_cons_of_mem _ hmem)))
      ?_ fun hrow => ?_
    · rintro rfl
      exact hapart hmem
    · exact (List.nodup_append.mp hrest).2.2 address hrow address haddress rfl
  · intro address hlt hout
    refine h.frame address hlt (fun heq => hout ?_) fun hrow => hout ?_
    · exact (hbelongs address).mp (heq ▸ List.mem_cons_self)
    · exact (hbelongs address).mp (List.mem_cons_of_mem _ (List.mem_append_left _ hrow))
  · rcases h.addresses with heq | heq
    · rw [heq]
      exact hnodup
    · -- the new object comes between the others, and no other is at its address
      have hmiddle : (table :: rows.map (·.2) ++ memory.objects.length :: others).Perm
          (memory.objects.length :: (table :: rows.map (·.2) ++ others)) := List.perm_middle
      rw [heq, List.append_assoc]
      refine hmiddle.nodup_iff.mpr (List.nodup_cons.mpr ⟨fun hmem => ?_, hnodup⟩)
      exact absurd (hbounded _ ((hbelongs _).mp hmem)) (Nat.lt_irrefl _)
  · intro address haddress
    rcases h.addresses with heq | heq
    · rw [heq] at haddress
      exact Or.inl ((hbelongs address).mp haddress)
    · rw [heq, List.append_assoc] at haddress
      by_cases hnew : address = memory.objects.length
      · exact Or.inr (Nat.le_of_eq hnew.symm)
      · left
        rw [← hbelongs]
        simp only [List.mem_cons, List.mem_append, hnew, false_or, List.nil_append,
          List.cons_append] at haddress ⊢
        exact haddress

theorem perm_own_edges (memory : Memory) (edgeRows missingRows : List (String × Address)) :
    (memory.edges :: (edgeRows.map (·.2) ++
      (memory.nodes :: memory.missing :: missingRows.map (·.2)))).Perm
        (memory.own edgeRows missingRows) := by
  unfold own
  refine (List.Perm.cons _ ?_).trans (List.Perm.swap _ _ _)
  exact List.perm_middle.trans (List.perm_middle.cons _)

theorem perm_own_missing (memory : Memory) (edgeRows missingRows : List (String × Address)) :
    (memory.missing :: (missingRows.map (·.2) ++
      (memory.nodes :: memory.edges :: edgeRows.map (·.2)))).Perm
        (memory.own edgeRows missingRows) := by
  unfold own
  refine (List.perm_middle.trans (List.perm_middle.cons _)).cons _ |>.trans ?_
  refine (List.Perm.swap _ _ _).trans (List.Perm.cons _ ?_)
  exact (List.Perm.swap _ _ _).trans ((List.perm_append_comm.cons _).cons _)

/-- A name can be put into a row of edges. -/
theorem Keeps.exists_insertEdge (h : Keeps memory tables) (source target : String) :
    ∃ objects, memory.insertAt? memory.edges source target = some { memory with objects } ∧
      Keeps { memory with objects }
        { tables with edges := Tables.insertRow source target tables.edges } := by
  obtain ⟨edgeRows, missingRows, hlays, hseals⟩ := h
  obtain ⟨objects, edgeRows', hinsert, hadded⟩ := exists_added hlays.edges hlays.edgeSets
    (perm_own_edges memory edgeRows missingRows) hlays.distinct hlays.bounded source target
  have hperm := perm_own_edges memory edgeRows' missingRows
  have hothers := hadded.same
  simp only [List.forall_mem_cons] at hothers
  obtain ⟨hnodes, hmissing, hmissingRows⟩ := hothers
  refine ⟨objects, hinsert, edgeRows', missingRows, ⟨hnodes.trans hlays.nodes, hadded.tableAt,
    hmissing.trans hlays.missing, hadded.rowsAt, rowsAt_congr hlays.missingSets hmissingRows,
    hperm.nodup_iff.mp hadded.distinct⟩, ?_⟩
  exact hseals.congr hadded.grows hadded.frame
    fun address haddress => hadded.fresh address (hperm.symm.subset haddress)

/-- A name can be put into a row of missing imports. -/
theorem Keeps.exists_insertMissing (h : Keeps memory tables) (source specifier : String) :
    ∃ objects, memory.insertAt? memory.missing source specifier = some { memory with objects } ∧
      Keeps { memory with objects }
        { tables with missing := Tables.insertRow source specifier tables.missing } := by
  obtain ⟨edgeRows, missingRows, hlays, hseals⟩ := h
  obtain ⟨objects, missingRows', hinsert, hadded⟩ := exists_added hlays.missing hlays.missingSets
    (perm_own_missing memory edgeRows missingRows) hlays.distinct hlays.bounded source specifier
  have hperm := perm_own_missing memory edgeRows missingRows'
  have hothers := hadded.same
  simp only [List.forall_mem_cons] at hothers
  obtain ⟨hnodes, hedges, hedgeRows⟩ := hothers
  refine ⟨objects, hinsert, edgeRows, missingRows', ⟨hnodes.trans hlays.nodes,
    hedges.trans hlays.edges, hadded.tableAt, rowsAt_congr hlays.edgeSets hedgeRows, hadded.rowsAt,
    hperm.nodup_iff.mp hadded.distinct⟩, ?_⟩
  exact hseals.congr hadded.grows hadded.frame
    fun address haddress => hadded.fresh address (hperm.symm.subset haddress)

theorem Keeps.exists_addNode? (h : Keeps memory tables) (node : String) :
    ∃ memory', memory.addNode? node = some memory' ∧ Keeps memory' (tables.addNode node) := by
  obtain ⟨objects, hinsert, hkeeps⟩ := h.exists_insertNode node
  exact ⟨_, hinsert, hkeeps⟩

/-- An edge is added unless it is a loop, and the answer tells which. -/
theorem Keeps.exists_addEdge? (h : Keeps memory tables) (source target : String) :
    ∃ memory', memory.addEdge? source target = some (source != target, memory') ∧
      Keeps memory' (tables.addEdge source target) := by
  unfold addEdge? Tables.addEdge
  by_cases heq : source = target
  · rw [if_pos heq, if_pos heq, heq, bne_self_eq_false]
    exact ⟨memory, rfl, h⟩
  · obtain ⟨objects₁, hsource, hkeeps₁⟩ := h.exists_insertNode source
    obtain ⟨objects₂, htarget, hkeeps₂⟩ := hkeeps₁.exists_insertNode target
    obtain ⟨objects₃, hedge, hkeeps₃⟩ := hkeeps₂.exists_insertEdge source target
    rw [if_neg heq, if_neg heq, bne_iff_ne.mpr heq]
    refine ⟨_, ?_, hkeeps₃⟩
    simp only [hsource, Option.bind_eq_bind, Option.bind_some]
    rw [htarget]
    show (Option.bind (insertAt? _ _ _ _) _) = _
    rw [hedge]
    rfl

theorem Keeps.exists_addMissing? (h : Keeps memory tables) (source specifier : String) :
    ∃ memory', memory.addMissing? source specifier = some memory' ∧
      Keeps memory' (tables.addMissing source specifier) := by
  obtain ⟨objects₁, hsource, hkeeps₁⟩ := h.exists_insertNode source
  obtain ⟨objects₂, hmissing, hkeeps₂⟩ := hkeeps₁.exists_insertMissing source specifier
  refine ⟨_, ?_, hkeeps₂⟩
  unfold addMissing?
  rw [hsource]
  exact hmissing

/-! ## Giving away -/

theorem IsForeign.mono {object : Object} (h : memory.IsForeign object)
    (hgiven : ∀ address ∈ memory.given, address ∈ memory'.given) : memory'.IsForeign object :=
  fun reference hreference => hgiven reference (h reference hreference)

/-- A new object does not touch the graph when it is given away. -/
theorem Keeps.give (h : Keeps memory tables) {object : Object} (hforeign : memory.IsForeign object) :
    Keeps (memory.give object).2 tables := by
  obtain ⟨edgeRows, missingRows, hlays, hseals⟩ := h
  have hsame : ∀ address < memory.objects.length,
      (memory.objects ++ [object])[address]? = memory.objects[address]? :=
    fun address hlt => List.getElem?_append_left hlt
  refine ⟨edgeRows, missingRows,
    hlays.congr fun address hown => hsame address (hlays.bounded address hown), ?_, ?_, ?_⟩
  · intro address hgiven
    show address < (memory.objects ++ [object]).length
    rw [List.length_append, List.length_singleton]
    rcases List.mem_cons.mp hgiven with rfl | hgiven
    · exact Nat.lt_succ_self _
    · exact Nat.lt_succ_of_lt (hseals.bounded address hgiven)
  · intro address hown hgiven
    rcases List.mem_cons.mp hgiven with rfl | hgiven
    · exact absurd (hlays.bounded _ hown) (Nat.lt_irrefl _)
    · exact hseals.apart address hown hgiven
  · intro address hgiven other hother
    have hother : (memory.objects ++ [object])[address]? = some other := hother
    have hmono : ∀ a ∈ memory.given, a ∈ (memory.give object).2.given :=
      fun a ha => List.mem_cons_of_mem _ ha
    rcases List.mem_cons.mp hgiven with rfl | hgiven
    · rw [List.getElem?_append_right (Nat.le_refl _), Nat.sub_self] at hother
      cases hother
      exact hforeign.mono hmono
    · rw [hsame address (hseals.bounded address hgiven)] at hother
      exact (hseals.closed address hgiven other hother).mono hmono

theorem IsForeign.of_isFlat {object : Object} (h : object.IsFlat) : memory.IsForeign object := by
  unfold IsForeign
  rw [h.references]
  exact fun reference hreference => absurd hreference List.not_mem_nil

/-- The objects of a table's rows do not touch the graph when they are given away. -/
theorem Keeps.giveRows {rows : List (String × Object)} (h : Keeps memory tables)
    (hflat : ∀ row ∈ rows, row.2.IsFlat) :
    Keeps (memory.giveRows rows).2 tables ∧
      (∀ address ∈ memory.given, address ∈ (memory.giveRows rows).2.given) ∧
      ∀ row ∈ (memory.giveRows rows).1, row.2 ∈ (memory.giveRows rows).2.given := by
  induction rows generalizing memory with
  | nil => exact ⟨h, fun address hgiven => hgiven, fun row hrow => absurd hrow List.not_mem_nil⟩
  | cons first rest ih =>
      obtain ⟨hfirst, hrest⟩ := List.forall_mem_cons.mp hflat
      obtain ⟨hkeeps, hgiven, hrows⟩ := ih (h.give (IsForeign.of_isFlat hfirst)) hrest
      refine ⟨hkeeps, fun address haddress => hgiven address (List.mem_cons_of_mem _ haddress), ?_⟩
      refine List.forall_mem_cons.mpr ⟨hgiven _ List.mem_cons_self, hrows⟩

/-- The rows that are given lead to their objects, and what was there before is still there. -/
theorem giveRows_reads (memory : Memory) (rows : List (String × Object)) :
    memory.objects <+: (memory.giveRows rows).2.objects ∧
      List.Forall₂ (fun row entry => row.1 = entry.1 ∧
        (memory.giveRows rows).2.objects[row.2]? = some entry.2) (memory.giveRows rows).1 rows := by
  induction rows generalizing memory with
  | nil => exact ⟨List.prefix_rfl, List.Forall₂.nil⟩
  | cons first rest ih =>
      obtain ⟨hkept, hrows⟩ := ih (memory.give first.2).2
      refine ⟨(List.prefix_append _ _).trans hkept, List.Forall₂.cons ⟨rfl, ?_⟩ hrows⟩
      obtain ⟨more, hmore⟩ := hkept
      have hbound : memory.objects.length < (memory.give first.2).2.objects.length := by
        show _ < (memory.objects ++ [first.2]).length
        rw [List.length_append]
        exact Nat.lt_succ_self _
      show ((memory.give first.2).2.giveRows rest).2.objects[memory.objects.length]? = _
      rw [← hmore, List.getElem?_append_left hbound]
      show (memory.objects ++ [first.2])[memory.objects.length]? = _
      rw [List.getElem?_append_right (Nat.le_refl _), Nat.sub_self]
      rfl

theorem Keeps.giveTable {rows : List (String × Object)} (h : Keeps memory tables)
    (hflat : ∀ row ∈ rows, row.2.IsFlat) : Keeps (memory.giveTable rows).2 tables := by
  obtain ⟨hkeeps, -, hrows⟩ := h.giveRows hflat
  refine hkeeps.give fun reference hreference => ?_
  obtain ⟨row, hrow, rfl⟩ := List.mem_map.mp hreference
  exact hrows row hrow

/-- A table that is given shows the objects of its rows. -/
theorem read?_giveTable (memory : Memory) (rows : List (String × Object)) :
    (memory.giveTable rows).2.read? (memory.giveTable rows).1 = some (.table rows) := by
  obtain ⟨-, hrows⟩ := giveRows_reads memory rows
  let filled := (memory.giveRows rows).2
  let table := Object.table (memory.giveRows rows).1
  have hobjects : (memory.giveTable rows).2.objects = filled.objects ++ [table] := rfl
  have htable : (memory.giveTable rows).2.objects[(memory.giveTable rows).1]? = some table := by
    show (filled.objects ++ [table])[filled.objects.length]? = _
    rw [List.getElem?_append_right (Nat.le_refl _), Nat.sub_self]
    rfl
  have hread : ((memory.giveRows rows).1.mapM fun row => do
      return (row.1, ← (memory.giveTable rows).2.objects[row.2]?)) = some rows := by
    refine mapM_of_forall₂ (hrows.imp fun row entry hrow => ?_)
    have hbound := (List.getElem?_eq_some_iff.mp hrow.2).1
    rw [hobjects, List.getElem?_append_left hbound, hrow.2, hrow.1]
    rfl
  unfold read?
  rw [htable]
  show (Option.bind ((memory.giveRows rows).1.mapM _) _) = _
  rw [hread]
  rfl

/-- **What is given is new, and shows the answer.** -/
theorem Keeps.reply {answer : Answer} (h : Keeps memory tables) (hflat : answer.IsFlat) :
    Keeps (memory.reply answer).2 tables ∧
      (memory.reply answer).2.shows? (memory.reply answer).1 = some answer := by
  cases answer with
  | object object =>
      refine ⟨h.give (IsForeign.of_isFlat hflat), ?_⟩
      show (Option.bind ((memory.objects ++ [object])[memory.objects.length]?) _) = _
      rw [List.getElem?_append_right (Nat.le_refl _), Nat.sub_self]
      cases object with
      | table rows => cases hflat
      | _ => rfl
  | table rows => exact ⟨h.giveTable hflat, read?_giveTable memory rows⟩
  | _ => exact ⟨h, rfl⟩

/-- A question is answered as the tables answer it. -/
theorem Keeps.exists_ask? {query : Query} {answer : Answer} (h : Keeps memory tables)
    (hanswer : tables.answer? query = some answer) (hflat : answer.IsFlat) :
    ∃ reply memory', memory.ask? query = some (reply, memory') ∧ Keeps memory' tables ∧
      memory'.shows? reply = some answer := by
  obtain ⟨hkeeps, hshows⟩ := h.reply hflat
  refine ⟨(memory.reply answer).1, (memory.reply answer).2, ?_, hkeeps, hshows⟩
  unfold ask?
  rw [h.tables?]
  show (Option.bind (tables.answer? query) _) = _
  rw [hanswer]
  rfl

/-! ## Changing what was given away -/

theorem Keeps.make (h : Keeps memory tables) (object : Object) :
    Keeps (memory.make object) tables := by
  unfold Memory.make
  split
  · rename_i hforeign
    exact h.give hforeign
  · exact h

/-- **No change of what was given away touches the graph.** -/
theorem Keeps.change (h : Keeps memory tables) (address : Address) (object : Object) :
    Keeps (memory.change address object) tables := by
  unfold Memory.change
  split
  · rename_i hallowed
    obtain ⟨hgiven, hforeign⟩ := hallowed
    obtain ⟨edgeRows, missingRows, hlays, hseals⟩ := h
    have hsame : ∀ other, other ≠ address →
        (memory.objects.set address object)[other]? = memory.objects[other]? :=
      fun other hne => List.getElem?_set_ne (Ne.symm hne)
    refine ⟨edgeRows, missingRows, hlays.congr fun other hown => hsame other ?_, ?_, hseals.apart,
      ?_⟩
    · rintro rfl
      exact hseals.apart _ hown hgiven
    · intro other hother
      exact Nat.lt_of_lt_of_eq (hseals.bounded other hother) List.length_set.symm
    · intro other hother content hcontent
      have hcontent : (memory.objects.set address object)[other]? = some content := hcontent
      by_cases heq : other = address
      · subst heq
        rw [List.getElem?_set_self (hseals.bounded _ hgiven)] at hcontent
        cases hcontent
        exact hforeign
      · rw [hsame other heq] at hcontent
        exact hseals.closed other hother content hcontent
  · exact h

end Memory

end SourceAtlas.ImportGraph

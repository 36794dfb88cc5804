/-
# SourceAtlas.Proofs.Render.FolderLine — the lines of a drawn folder tree, read.

A line is a run of marks and a label.  The marks of a character set are all of one width and no two
of them are the same (`Connectors.Legible`), so a line can be read from the left, mark by mark, up
to the first that is a connector; what follows is the label, whatever it looks like
(`FolderLine.read?_text`).
-/
import SourceAtlas.Render.Folder

namespace SourceAtlas.Render

/-! ## Legible marks -/

/-- The marks of a character set. -/
def Connectors.marks (connectors : Connectors) : List String :=
  [connectors.branch, connectors.last, connectors.vertical, connectors.space]

/-- **`Legible connectors`** — the marks are four characters wide, and no two are the same. -/
structure Connectors.Legible (connectors : Connectors) : Prop where
  width : ∀ mark ∈ connectors.marks, mark.toList.length = 4
  distinct : connectors.marks.Nodup

/-- Both character sets are legible. -/
theorem Connectors.legible_ofStyle (style : String) : (ofStyle style).Legible := by
  unfold ofStyle
  split
  · exact ⟨by decide, by decide⟩
  · exact ⟨by decide, by decide⟩

/-- The mark of a level. -/
def Connectors.levelMark (connectors : Connectors) (isLast : Bool) : String :=
  if isLast then connectors.space else connectors.vertical

/-- The connector of an item. -/
def Connectors.itemMark (connectors : Connectors) (isLast : Bool) : String :=
  if isLast then connectors.last else connectors.branch

namespace FolderLine

/-- The line of the same item, one level further down. -/
def under (isLast : Bool) (line : FolderLine) : FolderLine :=
  { line with levels := isLast :: line.levels }

/-- Read a line: the marks of its levels, its connector, and the rest as its label. -/
def read? (connectors : Connectors) : List Char → Option FolderLine
  | a :: b :: c :: d :: rest =>
    let mark := String.ofList [a, b, c, d]
    if mark = connectors.branch then some ⟨[], false, String.ofList rest⟩
    else if mark = connectors.last then some ⟨[], true, String.ofList rest⟩
    else if mark = connectors.vertical then (read? connectors rest).map (under false)
    else if mark = connectors.space then (read? connectors rest).map (under true)
    else none
  | _ => none

variable {connectors : Connectors}

/-! ## Reading what was written -/

/-- What is read behind a mark. -/
theorem read?_mark {mark : String} (hwidth : mark.toList.length = 4) (rest : List Char) :
    read? connectors (mark.toList ++ rest) =
      if mark = connectors.branch then some ⟨[], false, String.ofList rest⟩
      else if mark = connectors.last then some ⟨[], true, String.ofList rest⟩
      else if mark = connectors.vertical then (read? connectors rest).map (under false)
      else if mark = connectors.space then (read? connectors rest).map (under true)
      else none := by
  match hchars : mark.toList, hwidth with
  | [a, b, c, d], _ =>
      have hmark : String.ofList [a, b, c, d] = mark := by rw [← hchars, String.ofList_toList]
      show read? connectors (a :: b :: c :: d :: rest) = _
      rw [read?]
      simp only [hmark]

theorem read?_itemMark (h : connectors.Legible) (isLast : Bool) (rest : List Char) :
    read? connectors ((connectors.itemMark isLast).toList ++ rest) =
      some ⟨[], isLast, String.ofList rest⟩ := by
  have hdistinct := h.distinct
  cases isLast with
  | false =>
      rw [read?_mark (h.width _ (by simp [Connectors.itemMark, Connectors.marks]))]
      exact if_pos rfl
  | true =>
      have hbranch : connectors.last ≠ connectors.branch := by
        intro heq
        simp [Connectors.marks, heq] at hdistinct
      rw [read?_mark (h.width _ (by simp [Connectors.itemMark, Connectors.marks]))]
      exact (if_neg hbranch).trans (if_pos rfl)

theorem read?_levelMark (h : connectors.Legible) (isLast : Bool) (rest : List Char) :
    read? connectors ((connectors.levelMark isLast).toList ++ rest) =
      (read? connectors rest).map (under isLast) := by
  have hdistinct := h.distinct
  rw [read?_mark (h.width _ (by cases isLast <;> simp [Connectors.levelMark, Connectors.marks]))]
  cases isLast with
  | false => simp_all [Connectors.levelMark, Connectors.marks, eq_comm]
  | true => simp_all [Connectors.levelMark, Connectors.marks, eq_comm]

/-- The text of a line without levels is its connector and its label. -/
theorem toList_text_top (isLast : Bool) (label : String) :
    ((⟨[], isLast, label⟩ : FolderLine).text connectors).toList =
      (connectors.itemMark isLast).toList ++ label.toList := by
  show ("" ++ connectors.itemMark isLast ++ label).toList = _
  rw [String.empty_append, String.toList_append]

/-- The text of a line further down begins with the mark of the level above. -/
theorem toList_text_under (isLast : Bool) (line : FolderLine) :
    ((line.under isLast).text connectors).toList =
      (connectors.levelMark isLast).toList ++ (line.text connectors).toList := by
  have hindent : connectors.indent (isLast :: line.levels) =
      connectors.levelMark isLast ++ connectors.indent line.levels := by
    unfold Connectors.indent
    rw [List.map_cons, String.join_cons]
    rfl
  show (connectors.indent (isLast :: line.levels) ++ connectors.itemMark line.isLast
    ++ line.label).toList = _ ++ (connectors.indent line.levels ++ connectors.itemMark line.isLast
    ++ line.label).toList
  rw [hindent, ← String.toList_append]
  simp only [String.append_assoc]

/-- **A line is read as what was written**, whatever its label looks like. -/
theorem read?_text (h : connectors.Legible) (line : FolderLine) :
    read? connectors (line.text connectors).toList = some line := by
  obtain ⟨levels, isLast, label⟩ := line
  induction levels with
  | nil => rw [toList_text_top, read?_itemMark h, String.ofList_toList]
  | cons level levels ih =>
      show read? connectors ((under level ⟨levels, isLast, label⟩).text connectors).toList = _
      rw [toList_text_under, read?_levelMark h, ih]
      rfl

end FolderLine

end SourceAtlas.Render

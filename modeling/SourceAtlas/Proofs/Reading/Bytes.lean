/-
# SourceAtlas.Proofs.Reading.Bytes — a read depends on the bytes of its file alone.

A content of zero bytes is given by their number, and a read of it is said to find nothing.  That is
what a read of the bytes themselves finds: they are decoded to as many characters with the code
zero, and with these no statement begins (`specifiersOf_zeros`).  So it does not matter how the
bytes of a content are given (`contentSpecifiers_eq_of_toBytes`), and a file without faults has the
imports of its bytes (`importsIn_of_holdsContent`).
-/
import SourceAtlas.Proofs.Extract.Lines
import SourceAtlas.Proofs.Extract.Quoted
import SourceAtlas.Proofs.FileSystem.Mend
import SourceAtlas.Proofs.FileSystem.Place
import SourceAtlas.Proofs.Reading.Complete

namespace SourceAtlas

/-! ## Decoding zero bytes -/

namespace Text.Utf8

/-- Zero bytes are decoded to characters with the code zero, one for each. -/
theorem decode_zeros (count : Nat) :
    decode (List.replicate count 0) = List.replicate count (some '\x00') := by
  induction count with
  | zero =>
      rw [List.replicate_zero, decode]
      rfl
  | succ count ih =>
      have hlead : lead? 0 = some (0, []) := by decide
      have hnull : Char.ofNat 0 = '\x00' := rfl
      rw [List.replicate_succ, decode]
      simp only [hlead, followers, Option.map_some, hnull, ih]
      exact List.replicate_succ.symm

/-- A text without carriage returns has its line ends unified. -/
theorem unifyLineEnds_of_not_mem {text : List Char} (h : '\r' ∉ text) :
    unifyLineEnds text = text := by
  induction text with
  | nil => rfl
  | cons c rest ih =>
      obtain ⟨hc, hrest⟩ := List.ne_and_not_mem_of_not_mem_cons h
      have hkeeps : unifyLineEnds (c :: rest) = c :: unifyLineEnds rest := by
        rw [unifyLineEnds]
        · exact fun more heq => absurd heq.symm hc
        · exact fun heq => absurd heq.symm hc
      rw [hkeeps, ih hrest]

theorem lenient_zeros (count : Nat) :
    lenient (List.replicate count 0) = List.replicate count '\x00' := by
  unfold lenient
  rw [decode_zeros, List.map_replicate]
  apply unifyLineEnds_of_not_mem
  intro h
  exact absurd (List.eq_of_mem_replicate h) (by decide)

end Text.Utf8

/-! ## What zero bytes import -/

namespace Extract

/-- No statement is written with the character of code zero alone. -/
theorem not_lineNames_zeros (count : Nat) (name : List Char) :
    ¬ LineNames (List.replicate count '\x00') name := by
  have hno : ∀ c, c ≠ '\x00' → ∀ line, line = List.replicate count '\x00' → c ∉ line := by
    rintro c hc _ rfl hmem
    exact hc (List.eq_of_mem_replicate hmem)
  intro h
  cases h with
  | source h =>
      obtain ⟨indent, gap, gap', rest, -, -, -, -, -, hline⟩ := h
      exact hno 'f' (by decide) _ hline.symm (by simp)
  | listed h =>
      obtain ⟨indent, gap, remark, -, -, -, -, -, hline⟩ := h
      exact hno 'i' (by decide) _ hline.symm (by simp)

theorem dottedSpecifiers_zeros (count : Nat) :
    dottedSpecifiers (List.replicate count '\x00') = [] := by
  have hcut : ∀ c ∈ List.replicate count '\x00', (c == '\n') = false := by
    intro c hc
    rw [List.eq_of_mem_replicate hc]
    decide
  refine List.eq_nil_iff_forall_not_mem.mpr fun name h => ?_
  obtain ⟨line, hline, hnames⟩ := mem_dottedSpecifiers_iff.mp h
  rw [Text.pieces_of_no_cut hcut, List.mem_singleton] at hline
  exact not_lineNames_zeros count name (hline ▸ hnames)

theorem quotedSpecifiers_zeros (count : Nat) :
    quotedSpecifiers (List.replicate count '\x00') = [] := by
  have hquote : QuotedForm.NoQuote (List.replicate count '\x00') := by
    intro c hc
    rw [List.eq_of_mem_replicate hc]
    decide
  unfold quotedSpecifiers
  rw [List.flatMap_eq_nil_iff]
  exact fun form _ => QuotedForm.specifiers_of_noQuote hquote

end Extract

/-- **Zero bytes import nothing**, in any language. -/
theorem specifiersOf_zeros (language : Language) (count : Nat) :
    specifiersOf language (Text.Utf8.lenient (List.replicate count 0)) = OrderedSet.empty := by
  rw [Text.Utf8.lenient_zeros]
  unfold specifiersOf
  cases language with
  | ecmascript =>
      simp only [Extract.quotedSpecifiers_zeros]
      rfl
  | python =>
      simp only [Extract.dottedSpecifiers_zeros]
      rfl
  | none => rfl

/-! ## What contents import -/

namespace Content

@[simp] theorem length_toBytes (content : Content) : content.toBytes.length = content.size := by
  cases content with
  | bytes content => rfl
  | zeros count => exact List.length_replicate

end Content

namespace Reading

variable {root : Entry} {language : Language} {content content' : Content}

/-- A content imports what its bytes do. -/
theorem contentSpecifiers_eq (language : Language) (content : Content) :
    contentSpecifiers language content =
      specifiersOf language (Text.Utf8.lenient content.toBytes) := by
  cases content with
  | bytes content => rfl
  | zeros count => exact (specifiersOf_zeros language count).symm

/-- **Contents of the same bytes import the same.** -/
theorem contentSpecifiers_eq_of_toBytes (h : content.toBytes = content'.toBytes) :
    contentSpecifiers language content = contentSpecifiers language content' := by
  rw [contentSpecifiers_eq, contentSpecifiers_eq, h]

/-- **A file of a tree without faults imports what its content does.** -/
theorem importsIn_of_holdsContent (hformed : root.WellFormed) (hfree : root.FaultFree)
    {file : TrackedFile}
    (h : root.HoldsContent (Text.splitAt '/' file.path) content) :
    importsIn root file =
      if file.language = .none then OrderedSet.empty
      else contentSpecifiers file.language content := by
  obtain ⟨name, faults, hreaches⟩ := h
  have hfaults : faults = Faults.none := by
    cases hreaches.faultFree hfree
    rfl
  unfold importsIn
  rw [Entry.at?_of_reaches hreaches hformed, hfaults]
  rfl

end Reading

end SourceAtlas

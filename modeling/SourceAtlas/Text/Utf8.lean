/-
# SourceAtlas.Text.Utf8 — bytes to text.

A file's bytes are read as UTF-8.  Every well-formed sequence is a character; what is left is cut
into maximal ill-formed parts, each a prefix of some well-formed sequence or a single byte.  A
lenient reader puts one replacement character for each part, a strict reader refuses the file.
Both then see every line end as a line feed.
-/

namespace SourceAtlas.Text.Utf8

/-- The value bits of a first byte, and the closed ranges its followers must lie in. -/
def lead? (byte : UInt8) : Option (Nat × List (UInt8 × UInt8)) :=
  let bits := byte.toNat
  if byte < 0x80 then some (bits, [])
  else if byte < 0xC2 then none
  else if byte < 0xE0 then some (bits - 0xC0, [(0x80, 0xBF)])
  else if byte == 0xE0 then some (0, [(0xA0, 0xBF), (0x80, 0xBF)])
  else if byte == 0xED then some (0xD, [(0x80, 0x9F), (0x80, 0xBF)])
  else if byte < 0xF0 then some (bits - 0xE0, [(0x80, 0xBF), (0x80, 0xBF)])
  else if byte == 0xF0 then some (0, [(0x90, 0xBF), (0x80, 0xBF), (0x80, 0xBF)])
  else if byte < 0xF4 then some (bits - 0xF0, [(0x80, 0xBF), (0x80, 0xBF), (0x80, 0xBF)])
  else if byte == 0xF4 then some (4, [(0x80, 0x8F), (0x80, 0xBF), (0x80, 0xBF)])
  else none

/-- Take the followers of a first byte as long as they fit; the rest of the bytes comes along. -/
def followers (value : Nat) : List (UInt8 × UInt8) → List UInt8 → Option Nat × List UInt8
  | [], bytes => (some value, bytes)
  | _ :: _, [] => (none, [])
  | (low, high) :: more, byte :: bytes =>
    -- a byte that does not fit is left where it is, for it may begin a character of its own
    if low ≤ byte && byte ≤ high then followers (value * 64 + (byte.toNat - 0x80)) more bytes
    else (none, byte :: bytes)

theorem followers_length_le (value : Nat) (spans : List (UInt8 × UInt8)) (bytes : List UInt8) :
    (followers value spans bytes).2.length ≤ bytes.length := by
  induction spans generalizing value bytes with
  | nil => simp [followers]
  | cons span more ih =>
    cases bytes with
    | nil => simp [followers]
    | cons byte bytes =>
      simp only [followers]
      split
      · exact Nat.le_succ_of_le (ih _ _)
      · simp

/-- The characters of a byte sequence, with `none` for every maximal ill-formed part. -/
def decode : List UInt8 → List (Option Char)
  | [] => []
  | byte :: bytes =>
    match lead? byte with
    | none => none :: decode bytes
    | some (value, spans) =>
      have := followers_length_le value spans bytes
      (followers value spans bytes).1.map Char.ofNat :: decode (followers value spans bytes).2
termination_by bytes => bytes.length
decreasing_by all_goals (simp only [List.length_cons]; omega)

/-- Every line end, written `\r\n`, `\r` or `\n`, as a line feed. -/
def unifyLineEnds : List Char → List Char
  | [] => []
  | '\r' :: '\n' :: rest => '\n' :: unifyLineEnds rest
  | '\r' :: rest => '\n' :: unifyLineEnds rest
  | c :: rest => c :: unifyLineEnds rest

/-- The text of a source file: ill-formed parts become replacement characters. -/
def lenient (bytes : List UInt8) : List Char :=
  unifyLineEnds ((decode bytes).map (·.getD '\uFFFD'))

/-- The text of a settings file, if its bytes are well-formed. -/
def strict? (bytes : List UInt8) : Option (List Char) :=
  ((decode bytes).mapM id).map unifyLineEnds

end SourceAtlas.Text.Utf8

/-
Glob patterns and the paths they match.

A glob is read into pieces.  A star and a question mark match within one name, two stars between
slashes match any number of directories, a class in brackets matches one of its members, and braces
hold alternatives.  Paths are matched byte by byte, so a question mark matches one byte of a
character that has several.

A piece is matched by the list of what may be left of a path after it; a glob matches a path if
nothing may be left in the end.

Main definitions:

* `Glob.Piece` — a piece of a glob;
* `Glob.parse` — the pieces of a pattern, if it is well formed;
* `Glob.rests` — what may be left of a path after a row of pieces;
* `Glob.matches` — does a glob match a path?
-/

set_option autoImplicit false

namespace ExportSurface.Glob

/-- A piece of a glob. -/
inductive Piece where
  /-- The bytes of one character. -/
  | literal (bytes : List UInt8)
  /-- One byte of a name. -/
  | any
  /-- Any number of bytes of a name. -/
  | star
  /-- Two stars at the start: any directories above. -/
  | above
  /-- Two stars at the end, with the slash before them: anything below. -/
  | beneath
  /-- Two stars between slashes: a slash, and any directories after it. -/
  | between
  /-- One byte in, or out of, one of the ranges. -/
  | oneOf (negated : Bool) (ranges : List (UInt8 × UInt8))
  | alternatives (branches : List (List Piece))

/-! ### Reading a pattern -/

/-- The bytes of a character. -/
def bytesOf (c : Char) : List UInt8 := c.toString.toUTF8.toList

/-- The ranges of bytes that a range of characters in a class stands for.  Only the last byte of
the first character and the first byte of the last one span a range; the others stand alone. -/
def byteRanges (low high : Char) : List (UInt8 × UInt8) :=
  if low = high then (bytesOf low).map fun b => (b, b)
  else
    let lows := bytesOf low
    let highs := bytesOf high
    lows.dropLast.map (fun b => (b, b)) ++ [(lows.getLast?.getD 0, highs.head?.getD 0)] ++
      (highs.drop 1).map fun b => (b, b)

/-- What reading a class comes to. -/
inductive ClassResult where
  | closed (ranges : List (Char × Char)) (rest : List Char)
  /-- The pattern ends inside the class. -/
  | unclosed
  /-- A range runs backwards. -/
  | invalid

/-- The members of a class up to its end, in reverse order.  `first` says that no member was read
yet, so that a closing bracket is one; `pending` says that a range waits for its upper end. -/
def readClass (first pending : Bool) (ranges : List (Char × Char)) : List Char → ClassResult
  | [] => .unclosed
  | c :: rest =>
      if c = ']' && !first then
        .closed (if pending then ('-', '-') :: ranges else ranges) rest
      else if c = '-' && !first && !pending then readClass false true ranges rest
      else
        match pending, ranges with
        | true, (low, _) :: others =>
            if c < low then .invalid else readClass false false ((low, c) :: others) rest
        | _, _ => readClass false false ((c, c) :: ranges) rest

/-- A piece for a class. -/
def classPiece (negated : Bool) (ranges : List (Char × Char)) : Piece :=
  .oneOf negated (ranges.reverse.flatMap fun (low, high) => byteRanges low high)

/-- The alternatives that are being read: the pieces before them, in reverse order, and the
branches that are complete. -/
structure Frame where
  before : List Piece
  branches : List (List Piece) := []

/-- What has been read of a pattern: the pieces of the current branch, in reverse order, and the
alternatives around it from the inside out. -/
structure Progress where
  pieces : List Piece := []
  frames : List Frame := []
  /-- A bracket was found that nothing closes, so brackets stand for themselves. -/
  unclosed : Bool := false

def Progress.push (p : Progress) (piece : Piece) : Progress :=
  { p with pieces := piece :: p.pieces }

/-- Two stars that stand for nothing more than stars. -/
def Progress.pushStars (p : Progress) : Progress := (p.push .star).push .star

/-- Put two stars in place of the slash before them; after two others they change nothing. -/
def Progress.pushRecursive (p : Progress) (piece : Piece) : Progress :=
  match p.pieces with
  | .above :: _ | .beneath :: _ => p
  | _ :: rest => { p with pieces := piece :: rest }
  | [] => p

/-- Two stars, given the character before them and the text after them; answers the text that is
left. -/
def doubleStar (p : Progress) (previous : Option Char) (rest : List Char) :
    Progress × List Char :=
  if p.pieces.isEmpty then
    match rest with
    | [] => (p.push .above, [])
    | '/' :: rest => (p.push .above, rest)
    | _ => (p.pushStars, rest)
  else if previous ≠ some '/' &&
      (p.frames.isEmpty || (previous ≠ some ',' && previous ≠ some '\x7b')) then
    (p.pushStars, rest)
  else
    match rest with
    | [] => (p.pushRecursive .beneath, [])
    | '/' :: rest => (p.pushRecursive .between, rest)
    | c :: _ =>
        if !p.frames.isEmpty && (c = ',' || c = '\x7d') then (p.pushRecursive .beneath, rest)
        else (p.pushStars, rest)

/-- Read a pattern from a place on, given the character before it. -/
def readFrom : Nat → Progress → Option Char → List Char → Option Progress
  | 0, _, _, _ => none
  | _ + 1, p, _, [] => some p
  | fuel + 1, p, previous, c :: rest =>
      match c with
      | '?' => readFrom fuel (p.push .any) (some c) rest
      | '*' =>
          match rest with
          | '*' :: after =>
              let (p, left) := doubleStar p previous after
              let slashed := left.length < after.length
              readFrom fuel p (some (if slashed then '/' else '*')) left
          | _ => readFrom fuel (p.push .star) (some c) rest
      | '[' =>
          if p.unclosed then readFrom fuel (p.push (.literal (bytesOf c))) (some c) rest
          else
            let (negated, inner) :=
              match rest with
              | '!' :: inner => (true, inner)
              | '^' :: inner => (true, inner)
              | _ => (false, rest)
            match readClass true false [] inner with
            | .closed ranges after =>
                readFrom fuel (p.push (classPiece negated ranges)) (some ']') after
            | .invalid => none
            | .unclosed =>
                readFrom fuel { p.push (.literal (bytesOf c)) with unclosed := true } (some c) rest
      | '\x7b' =>
          readFrom fuel { p with pieces := [], frames := { before := p.pieces } :: p.frames }
            (some c) rest
      | '\x7d' =>
          match p.frames with
          | [] => none
          | frame :: frames =>
              let branches := frame.branches ++ [p.pieces.reverse]
              readFrom fuel { p with pieces := .alternatives branches :: frame.before, frames }
                (some c) rest
      | ',' =>
          match p.frames with
          | [] => readFrom fuel (p.push (.literal (bytesOf c))) (some c) rest
          | frame :: frames =>
              let frame := { frame with branches := frame.branches ++ [p.pieces.reverse] }
              readFrom fuel { p with pieces := [], frames := frame :: frames } (some c) rest
      | '\\' =>
          match rest with
          | [] => none
          | escaped :: rest =>
              readFrom fuel (p.push (.literal (bytesOf escaped))) (some escaped) rest
      | _ => readFrom fuel (p.push (.literal (bytesOf c))) (some c) rest

/-- The pieces of a pattern; a backslash at the end, a brace without its partner and a range that
runs backwards make it malformed. -/
def parse (pattern : List Char) : Option (List Piece) :=
  match readFrom (pattern.length + 1) {} none pattern with
  | some p => if p.frames.isEmpty then some p.pieces.reverse else none
  | none => none

/-! ### Matching -/

/-- The byte of a slash. -/
def slash : UInt8 := 47

/-- What may be left after any number of bytes of a name. -/
def restsOfStar : List UInt8 → List (List UInt8)
  | [] => [[]]
  | b :: rest => (b :: rest) :: if b = slash then [] else restsOfStar rest

/-- What may be left after a slash, with anything before it. -/
def restsAfterSlash : List UInt8 → List (List UInt8)
  | [] => []
  | b :: rest => if b = slash then rest :: restsAfterSlash rest else restsAfterSlash rest

/-- Everything that may be left of a path. -/
def restsOfAll : List UInt8 → List (List UInt8)
  | [] => [[]]
  | b :: rest => (b :: rest) :: restsOfAll rest

mutual

/-- Do pieces stand for nothing at all? -/
def isVoid : List Piece → Bool
  | [] => true
  | .alternatives branches :: rest => areVoid branches && isVoid rest
  | _ :: _ => false

/-- Do all branches stand for nothing at all? -/
def areVoid : List (List Piece) → Bool
  | [] => true
  | branch :: rest => isVoid branch && areVoid rest

end

mutual

/-- What may be left of a path after a piece. -/
def pieceRests : Piece → List UInt8 → List (List UInt8)
  | .literal bytes, path => if bytes.isPrefixOf path then [path.drop bytes.length] else []
  | .any, path =>
      match path with
      | b :: rest => if b = slash then [] else [rest]
      | [] => []
  | .star, path => restsOfStar path
  | .above, path => path :: restsAfterSlash path
  | .beneath, path =>
      match path with
      | b :: rest => if b = slash then restsOfAll rest else []
      | [] => []
  | .between, path =>
      match path with
      | b :: rest => if b = slash then rest :: restsAfterSlash rest else []
      | [] => []
  | .oneOf negated ranges, path =>
      match path with
      | b :: rest =>
          if (ranges.any fun (low, high) => low ≤ b && b ≤ high) != negated then [rest] else []
      | [] => []
  | .alternatives branches, path =>
      if areVoid branches then [path] else branchRests branches path

/-- What may be left of a path after a row of pieces. -/
def rests : List Piece → List UInt8 → List (List UInt8)
  | [], path => [path]
  | piece :: others, path => ((pieceRests piece path).flatMap (rests others)).eraseDups

/-- What may be left of a path after one of several branches; branches that stand for nothing do
not count. -/
def branchRests : List (List Piece) → List UInt8 → List (List UInt8)
  | [], _ => []
  | branch :: others, path =>
      (if isVoid branch then [] else rests branch path) ++ branchRests others path

end

/-- Does a glob match a path?  Two stars alone match everything. -/
def «matches» (pieces : List Piece) (path : List UInt8) : Bool :=
  match pieces with
  | [.above] => true
  | _ => (rests pieces path).contains []

end ExportSurface.Glob

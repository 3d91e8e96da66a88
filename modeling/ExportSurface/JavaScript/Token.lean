/-
The tokens of JavaScript source.

A slash starts a regular expression where an operand is expected and is an operator elsewhere, so a
token is read in one of two modes.  Templates and markup are not tokens: their readers take over
at the opening character.

Main definitions:

* `Token` — names, literals and punctuators;
* `readToken` — the token at the front of a text, with the text after it.
-/

import ExportSurface.JavaScript.Cursor

set_option autoImplicit false

namespace ExportSurface.JavaScript

/-- A token. -/
inductive Token where
  /-- A name or a keyword, escapes included as they are written. -/
  | word (text : String)
  /-- A name that starts with `#`. -/
  | privateName (text : String)
  /-- A string with its quotes. -/
  | string (source : String)
  | number (source : String)
  | regex (source : String)
  | punctuator (text : String)
  /-- The end of the text. -/
  | finish
  deriving DecidableEq

namespace Token

/-! ### Names -/

/-- The longest name at the front of a text, and the rest. -/
def takeName : List Char → List Char × List Char
  | [] => ([], [])
  | '\\' :: 'u' :: '\x7b' :: rest =>
      let (text, rest) := takeBraced rest
      ('\\' :: 'u' :: '\x7b' :: text, rest)
  | '\\' :: rest =>
      let (text, rest) := takeName rest
      ('\\' :: text, rest)
  | c :: rest =>
      if isIdentifierPart c then
        let (text, rest) := takeName rest
        (c :: text, rest)
      else ([], c :: rest)
where
  /-- The rest of an escape in braces, and the name after it. -/
  takeBraced : List Char → List Char × List Char
    | [] => ([], [])
    | '\x7d' :: rest =>
        let (text, rest) := takeName rest
        ('\x7d' :: text, rest)
    | c :: rest =>
        let (text, rest) := takeBraced rest
        (c :: text, rest)

/-! ### Literals -/

/-- The rest of a string up to its closing quote, which is included; a backslash takes the next
character with it. -/
def takeString (quote : Char) : List Char → List Char × List Char
  | [] => ([], [])
  | '\\' :: c :: rest =>
      let (text, rest) := takeString quote rest
      ('\\' :: c :: text, rest)
  | c :: rest =>
      if c = quote then ([c], rest)
      else
        let (text, rest) := takeString quote rest
        (c :: text, rest)

/-- The rest of a regular expression up to its closing slash, which is included.  A slash in a
class of characters does not close it. -/
def takeRegex : Bool → List Char → List Char × List Char
  | _, [] => ([], [])
  | inClass, '\\' :: c :: rest =>
      let (text, rest) := takeRegex inClass rest
      ('\\' :: c :: text, rest)
  | inClass, c :: rest =>
      if c = '/' && !inClass then ([c], rest)
      else
        let inClass := if c = '[' then true else if c = ']' then false else inClass
        let (text, rest) := takeRegex inClass rest
        (c :: text, rest)

def isDigitOrMark (c : Char) : Bool := c.isDigit || c == '_'

/-- The exponent at the front of a text, if there is one. -/
def takeExponent (cs : List Char) : List Char × List Char :=
  match cs with
  | 'e' :: rest | 'E' :: rest =>
      let (sign, digits) :=
        match rest with
        | '+' :: rest => (['+'], rest)
        | '-' :: rest => (['-'], rest)
        | _ => ([], rest)
      if digits.head?.any Char.isDigit then
        (cs.take 1 ++ sign ++ digits.takeWhile isDigitOrMark, digits.dropWhile isDigitOrMark)
      else ([], cs)
  | _ => ([], cs)

/-- The number at the front of a text, which starts with a digit or with a point before one.  A
number with a base mark, and the mark of a big integer, are runs of letters and digits. -/
def takeNumber (cs : List Char) : List Char × List Char :=
  match cs with
  | '0' :: mark :: rest =>
      if "xXoObB".toList.contains mark then
        let part := fun c : Char => c.isAlphanum || c == '_'
        ('0' :: mark :: rest.takeWhile part, rest.dropWhile part)
      else takeDecimal cs
  | _ => takeDecimal cs
where
  /-- Digits, a fraction and an exponent, or the mark of a big integer after digits. -/
  takeDecimal (cs : List Char) : List Char × List Char :=
    let whole := cs.takeWhile isDigitOrMark
    match cs.dropWhile isDigitOrMark with
    | 'n' :: rest => (whole ++ ['n'], rest)
    | '.' :: rest =>
        let (exponent, after) := takeExponent (rest.dropWhile isDigitOrMark)
        (whole ++ '.' :: rest.takeWhile isDigitOrMark ++ exponent, after)
    | rest =>
        let (exponent, after) := takeExponent rest
        (whole ++ exponent, after)

/-! ### Punctuators -/

/-- The punctuators of more than one character, the longest first. -/
def longPunctuators : List (List Char) :=
  [">>>=", "...", "===", "!==", "**=", "<<=", ">>=", ">>>", "&&=", "||=", "??=", "=>", "==", "!=",
    "<=", ">=", "&&", "||", "??", "?.", "++", "--", "+=", "-=", "*=", "/=", "%=", "&=", "|=", "^=",
    "<<", ">>", "**"].map String.toList

/-- The punctuator at the front of a text; `?.` before a digit is two of them. -/
def takePunctuator (cs : List Char) : List Char × List Char :=
  match longPunctuators.find? (·.isPrefixOf cs) with
  | some p =>
      let rest := cs.drop p.length
      if p = ['?', '.'] && rest.head?.any Char.isDigit then (cs.take 1, cs.drop 1) else (p, rest)
  | none => (cs.take 1, cs.drop 1)

end Token

/-- The token at the front of a text, with the text after it.  `operand` says that an operand is
expected. -/
def readToken (operand : Bool) (cs : List Char) : Token × List Char :=
  match cs with
  | [] => (.finish, [])
  | c :: rest =>
      if isIdentifierStart c || c = '\\' then
        let (text, rest) := Token.takeName cs
        (.word (String.ofList text), rest)
      else if c = '#' then
        let (text, rest) := Token.takeName rest
        (.privateName (String.ofList ('#' :: text)), rest)
      else if c = '"' || c = '\'' then
        let (text, rest) := Token.takeString c rest
        (.string (String.ofList (c :: text)), rest)
      else if c.isDigit || (c = '.' && rest.head?.any Char.isDigit) then
        let (text, rest) := Token.takeNumber cs
        (.number (String.ofList text), rest)
      else if c = '/' && operand then
        let (body, rest) := Token.takeRegex false rest
        let flags := rest.takeWhile isIdentifierPart
        (.regex (String.ofList (c :: body ++ flags)), rest.dropWhile isIdentifierPart)
      else
        let (text, rest) := Token.takePunctuator cs
        (.punctuator (String.ofList text), rest)

end ExportSurface.JavaScript

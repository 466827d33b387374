import Mathlib.Algebra.Field.Rat

/-!
# The grammar of JSON

What a JSON text denotes, production by production.

    document  : element
    element   : gap value gap
    value     : `null` | `true` | `false` | number | string
              | `[` gap `]` | `[` element (`,` element)* `]`
              | `{` gap `}` | `{` member (`,` member)* `}`
    member    : gap string gap `:` element
    string    : `"` character* `"`
    character : any from U+0020 on, except `"` and the backslash
              | a backslash and one of `"` `\` `/` `b` `f` `n` `r` `t`
              | a backslash, `u` and four hexadecimal digits, or two of these for
                the two halves of a character above U+FFFF
    number    : `-`? (`0` | [1-9] [0-9]*) (`.` [0-9]+)? ([eE] [+-]? [0-9]+)?
    gap       : (space | newline | carriage return | tab)*

Each relation holds of a text, of what its beginning denotes and of the text behind
that beginning.
-/

namespace Classlet.Json

/-- What a JSON text stands for; a record keeps its members in order. -/
inductive Value where
  | null
  | boolean (value : Bool)
  | number (value : ℚ)
  | text (value : String)
  | list (items : List Value)
  | record (members : List (String × Value))

namespace Grammar

def blanks : List Char := [' ', '\n', '\r', '\t']

inductive Gap : List Char → List Char → Prop where
  | none {text : List Char} : Gap text text
  | more {char : Char} {text rest : List Char} (hchar : char ∈ blanks) (h : Gap text rest) :
      Gap (char :: text) rest

/-! ## Numbers -/

def IsDigits (digits : List Char) : Prop :=
  digits ≠ [] ∧ ∀ char ∈ digits, char.isDigit = true

def decimal (digits : List Char) : Nat :=
  Nat.ofDigitChars 10 digits 0

inductive Minus : List Char → ℚ → List Char → Prop where
  | absent {text : List Char} : Minus text 1 text
  | present {rest : List Char} : Minus ('-' :: rest) (-1) rest

/-- Digits of which the first is no zero, unless it is the only one. -/
inductive Whole : List Char → ℚ → List Char → Prop where
  | intro {text digits rest : List Char} (hdigits : IsDigits digits)
      (hzero : digits.head? = some '0' → digits = ['0']) (htext : text = digits ++ rest) :
      Whole text (decimal digits) rest

inductive Fraction : List Char → ℚ → List Char → Prop where
  | absent {text : List Char} : Fraction text 0 text
  | present {text digits rest : List Char} (hdigits : IsDigits digits)
      (htext : text = digits ++ rest) :
      Fraction ('.' :: text) (decimal digits / 10 ^ digits.length) rest

inductive Exponent : List Char → ℤ → List Char → Prop where
  | absent {text : List Char} : Exponent text 0 text
  | plain {mark : Char} {text digits rest : List Char} (hmark : mark ∈ ['e', 'E'])
      (hdigits : IsDigits digits) (htext : text = digits ++ rest) :
      Exponent (mark :: text) (decimal digits) rest
  | plus {mark : Char} {text digits rest : List Char} (hmark : mark ∈ ['e', 'E'])
      (hdigits : IsDigits digits) (htext : text = digits ++ rest) :
      Exponent (mark :: '+' :: text) (decimal digits) rest
  | minus {mark : Char} {text digits rest : List Char} (hmark : mark ∈ ['e', 'E'])
      (hdigits : IsDigits digits) (htext : text = digits ++ rest) :
      Exponent (mark :: '-' :: text) (-decimal digits) rest

inductive Number : List Char → ℚ → List Char → Prop where
  | intro {text unsigned afterWhole afterFraction rest : List Char} {sign whole fraction : ℚ}
      {exponent : ℤ} (hminus : Minus text sign unsigned) (hwhole : Whole unsigned whole afterWhole)
      (hfraction : Fraction afterWhole fraction afterFraction)
      (hexponent : Exponent afterFraction exponent rest) :
      Number text (sign * (whole + fraction) * 10 ^ exponent) rest

/-! ## Strings -/

/-- The letters behind a backslash that stand for one character each. -/
def shortEscapes : List (Char × Char) :=
  [('"', '"'), ('\\', '\\'), ('/', '/'), ('b', '\x08'), ('f', '\x0c'), ('n', '\n'),
    ('r', '\r'), ('t', '\t')]

def hexValue? (char : Char) : Option Nat :=
  if '0' ≤ char ∧ char ≤ '9' then some (char.toNat - '0'.toNat)
  else if 'a' ≤ char ∧ char ≤ 'f' then some (char.toNat - 'a'.toNat + 10)
  else if 'A' ≤ char ∧ char ≤ 'F' then some (char.toNat - 'A'.toNat + 10)
  else none

inductive CodeUnit : List Char → Nat → List Char → Prop where
  | intro {first second third fourth : Char} {a b c d : Nat} {rest : List Char}
      (hfirst : hexValue? first = some a) (hsecond : hexValue? second = some b)
      (hthird : hexValue? third = some c) (hfourth : hexValue? fourth = some d) :
      CodeUnit (first :: second :: third :: fourth :: rest)
        (((a * 16 + b) * 16 + c) * 16 + d) rest

inductive Character : List Char → Char → List Char → Prop where
  | plain {char : Char} {rest : List Char} (hquote : char ≠ '"') (hbackslash : char ≠ '\\')
      (hcontrol : 0x20 ≤ char.toNat) : Character (char :: rest) char rest
  | short {letter char : Char} {rest : List Char} (h : (letter, char) ∈ shortEscapes) :
      Character ('\\' :: letter :: rest) char rest
  | unit {char : Char} {text rest : List Char} (h : CodeUnit text char.toNat rest) :
      Character ('\\' :: 'u' :: text) char rest
  | pair {char : Char} {high low : Nat} {text next rest : List Char}
      (hhigh : CodeUnit text high ('\\' :: 'u' :: next)) (hlow : CodeUnit next low rest)
      (hhighRange : 0xD800 ≤ high ∧ high < 0xDC00) (hlowRange : 0xDC00 ≤ low ∧ low < 0xE000)
      (hchar : char.toNat = 0x10000 + (high - 0xD800) * 0x400 + (low - 0xDC00)) :
      Character ('\\' :: 'u' :: text) char rest

inductive Characters : List Char → List Char → List Char → Prop where
  | none {text : List Char} : Characters text [] text
  | more {char : Char} {text next rest chars : List Char} (hchar : Character text char next)
      (h : Characters next chars rest) : Characters text (char :: chars) rest

inductive Quoted : List Char → String → List Char → Prop where
  | intro {text chars rest : List Char} (h : Characters text chars ('"' :: rest)) :
      Quoted ('"' :: text) (String.ofList chars) rest

/-! ## Values -/

/-- One part, or several with commas between them. -/
inductive Series {Part : Type} (part : List Char → Part → List Char → Prop) :
    List Char → List Part → List Char → Prop where
  | one {text rest : List Char} {first : Part} (h : part text first rest) :
      Series part text [first] rest
  | more {text next rest : List Char} {first : Part} {others : List Part}
      (hfirst : part text first (',' :: next)) (h : Series part next others rest) :
      Series part text (first :: others) rest

mutual

inductive Denotes : List Char → Value → List Char → Prop where
  | null {rest : List Char} : Denotes ('n' :: 'u' :: 'l' :: 'l' :: rest) .null rest
  | true {rest : List Char} : Denotes ('t' :: 'r' :: 'u' :: 'e' :: rest) (.boolean .true) rest
  | false {rest : List Char} :
      Denotes ('f' :: 'a' :: 'l' :: 's' :: 'e' :: rest) (.boolean .false) rest
  | number {text rest : List Char} {value : ℚ} (h : Number text value rest) :
      Denotes text (.number value) rest
  | text {text rest : List Char} {value : String} (h : Quoted text value rest) :
      Denotes text (.text value) rest
  | emptyList {text rest : List Char} (h : Gap text (']' :: rest)) :
      Denotes ('[' :: text) (.list []) rest
  | list {text rest : List Char} {items : List Value}
      (h : Series Element text items (']' :: rest)) : Denotes ('[' :: text) (.list items) rest
  | emptyRecord {text rest : List Char} (h : Gap text ('\x7d' :: rest)) :
      Denotes ('\x7b' :: text) (.record []) rest
  | record {text rest : List Char} {members : List (String × Value)}
      (h : Series Member text members ('\x7d' :: rest)) :
      Denotes ('\x7b' :: text) (.record members) rest

inductive Element : List Char → Value → List Char → Prop where
  | intro {text start behind rest : List Char} {value : Value} (hbefore : Gap text start)
      (h : Denotes start value behind) (hafter : Gap behind rest) : Element text value rest

inductive Member : List Char → String × Value → List Char → Prop where
  | intro {text start behind next rest : List Char} {name : String} {value : Value}
      (hbefore : Gap text start) (hname : Quoted start name behind)
      (hafter : Gap behind (':' :: next)) (h : Element next value rest) :
      Member text (name, value) rest

end

/-- The whole text is one JSON document. -/
def Document (text : List Char) (value : Value) : Prop :=
  Element text value []

end Grammar

end Classlet.Json

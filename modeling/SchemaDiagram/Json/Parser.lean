import SchemaDiagram.Json
import SchemaDiagram.Decimal.Reader
import SchemaDiagram.Text.Unpaired

/-!
JSON text as values. The reader takes the standard grammar together with the three names of the
numbers that have no numeral, keeps the place of a repeated member and its last value, and refuses
an integer of more digits than the limit. It reads in one of two dialects, which differ in how deep
values may stand inside one another and in what else they refuse.
-/

set_option autoImplicit false

namespace SchemaDiagram.Json

open Decimal (isAsciiDigit ofDigits toFloat maxDigits)

inductive SyntaxFault where
  | malformed
  /-- An integer has more digits than the limit. -/
  | longInteger (digits : Nat)
  /-- An array or an object stands deeper than the limit. -/
  | tooDeep (inObject : Bool)
  deriving DecidableEq, Repr

inductive Dialect where
  /-- Records in a text. A unit of a surrogate pair may not stand alone, nor may the character that
      stands for one, and the limit of digits holds for the whole part of every number. Only arrays and
      objects that hold something count as deep. -/
  | strict
  /-- Documents and replies. -/
  | lenient
  deriving DecidableEq, Repr

def Dialect.depth : Dialect → Nat
  | strict => 200
  | lenient => 988

abbrev Reading (α : Type) := Except SyntaxFault (α × List Char)

def isSeparator (c : Char) : Bool :=
  c == ' ' || c == '\t' || c == '\n' || c == '\r'

def skip (cs : List Char) : List Char := cs.dropWhile isSeparator

def hexValue? (c : Char) : Option Nat :=
  if '0' ≤ c && c ≤ '9' then some (c.toNat - 48)
  else if 'a' ≤ c && c ≤ 'f' then some (c.toNat - 87)
  else if 'A' ≤ c && c ≤ 'F' then some (c.toNat - 55)
  else none

def unit? : List Char → Option (Nat × List Char)
  | a :: b :: c :: d :: rest => do
    let a ← hexValue? a
    let b ← hexValue? b
    let c ← hexValue? c
    let d ← hexValue? d
    return (((a * 16 + b) * 16 + c) * 16 + d, rest)
  | _ => none

/-- The character of an escaped code unit. A high surrogate takes an escaped low one along; a
    surrogate without its partner is kept for what it is or refused. -/
def unitChar? (d : Dialect) (cs : List Char) : Option (Char × List Char) := do
  let (unit, rest) ← unit? cs
  let alone := if d = .lenient then some (Text.ofUnpaired unit, rest) else none
  if Text.isHighUnit unit then
    match rest with
    | '\\' :: 'u' :: after =>
      let (low, after) ← unit? after
      if Text.isLowUnit low then return (Text.ofPair unit low, after) else alone
    | _ => alone
  else if Text.isLowUnit unit then alone
  else return (Char.ofNat unit, rest)

def escape? (c : Char) : Option Char :=
  match c with
  | '"' => some '"'
  | '\\' => some '\\'
  | '/' => some '/'
  | 'b' => some '\x08'
  | 'f' => some '\x0c'
  | 'n' => some '\n'
  | 'r' => some '\r'
  | 't' => some '\t'
  | _ => none

def readString (d : Dialect) : Nat → List Char → List Char → Reading String
  | 0, _, _ => .error .malformed
  | fuel + 1, acc, cs =>
    match cs with
    | [] => .error .malformed
    | '"' :: rest =>
      let s := String.ofList acc.reverse
      if d = .strict ∧ Text.hasUnpaired s = true then .error .malformed else .ok (s, rest)
    | '\\' :: 'u' :: rest =>
      match unitChar? d rest with
      | some (c, rest) => readString d fuel (c :: acc) rest
      | none => .error .malformed
    | '\\' :: e :: rest =>
      match escape? e with
      | some c => readString d fuel (c :: acc) rest
      | none => .error .malformed
    | c :: rest => if c.toNat < 0x20 || c = '\\' then .error .malformed
      else readString d fuel (c :: acc) rest

def readNumber (d : Dialect) (negative : Bool) (cs : List Char) : Reading Json :=
  let whole := cs.takeWhile isAsciiDigit
  let rest := cs.dropWhile isAsciiDigit
  let long := decide (maxDigits < whole.length)
  if d = .strict ∧ long then .error (.longInteger whole.length) else
  match whole with
  | [] => .error .malformed
  | first :: more =>
    if first = '0' ∧ more ≠ [] then .error .malformed
    else
      let fraction? : Option (List Char × List Char) := match rest with
        | '.' :: r =>
          let digits := r.takeWhile isAsciiDigit
          if digits = [] then none else some (digits, r.dropWhile isAsciiDigit)
        | r => some ([], r)
      match fraction? with
      | none => .error .malformed
      | some (fraction, rest) =>
        let exponent? : Option (Option Int × List Char) := match rest with
          | e :: r =>
            if e = 'e' ∨ e = 'E' then
              let (minus, r) := match r with
                | '-' :: r => (true, r)
                | '+' :: r => (false, r)
                | r => (false, r)
              let digits := r.takeWhile isAsciiDigit
              if digits = [] then none
              else
                let size : Int := ofDigits digits
                some (some (if minus then -size else size), r.dropWhile isAsciiDigit)
            else some (none, rest)
          | [] => some (none, rest)
        match exponent? with
        | none => .error .malformed
        | some (none, rest) =>
          if fraction = [] then
            if long then .error (.longInteger whole.length)
            else .ok (.int (if negative then -(ofDigits whole : Int) else ofDigits whole), rest)
          else .ok (.float (toFloat negative (ofDigits (whole ++ fraction)) (-fraction.length)), rest)
        | some (some e, rest) =>
          .ok (.float (toFloat negative (ofDigits (whole ++ fraction)) (e - fraction.length)), rest)

def word? (w : String) (cs : List Char) : Option (List Char) :=
  if w.toList.isPrefixOf cs then some (cs.drop w.length) else none

def readAtom (d : Dialect) (cs : List Char) : Reading Json :=
  match word? "null" cs, word? "true" cs, word? "false" cs with
  | some rest, _, _ => .ok (.null, rest)
  | _, some rest, _ => .ok (.bool true, rest)
  | _, _, some rest => .ok (.bool false, rest)
  | none, none, none =>
    match word? "NaN" cs, word? "Infinity" cs, word? "-Infinity" cs with
    | some rest, _, _ => .ok (.float (0.0 / 0.0), rest)
    | _, some rest, _ => .ok (.float (1.0 / 0.0), rest)
    | _, _, some rest => .ok (.float (-(1.0 / 0.0)), rest)
    | none, none, none =>
      match cs with
      | '-' :: rest => readNumber d true rest
      | cs => readNumber d false cs

mutual

/-- A value after any separators. The fuel bounds the number of values and members begun; `room` is
    how many arrays and objects may still stand inside one another. -/
def readValue (d : Dialect) : Nat → Nat → List Char → Reading Json
  | 0, _, _ => .error .malformed
  | fuel + 1, room, cs =>
    match skip cs with
    | '[' :: rest =>
      if d = .lenient ∧ room = 0 then .error (.tooDeep false)
      else
        match skip rest, room with
        | ']' :: rest, _ => .ok (.arr [], rest)
        | _, 0 => .error (.tooDeep false)
        | rest, room + 1 =>
          (readItems d fuel room [] rest).map fun (xs, rest) => (.arr xs, rest)
    | '\x7b' :: rest =>
      if d = .lenient ∧ room = 0 then .error (.tooDeep true)
      else
        match skip rest, room with
        | '\x7d' :: rest, _ => .ok (.obj [], rest)
        | _, 0 => .error (.tooDeep true)
        | rest, room + 1 =>
          (readMembers d fuel room [] rest).map fun (ms, rest) => (.obj ms, rest)
    | '"' :: rest => (readString d (rest.length + 1) [] rest).map fun (s, rest) => (.str s, rest)
    | rest => readAtom d rest

def readItems (d : Dialect) : Nat → Nat → List Json → List Char → Reading (List Json)
  | 0, _, _, _ => .error .malformed
  | fuel + 1, room, acc, cs =>
    match readValue d fuel room cs with
    | .error f => .error f
    | .ok (v, rest) =>
      match skip rest with
      | ',' :: rest => readItems d fuel room (v :: acc) rest
      | ']' :: rest => .ok ((v :: acc).reverse, rest)
      | _ => .error .malformed

def readMembers (d : Dialect) : Nat → Nat → List (String × Json) → List Char →
    Reading (List (String × Json))
  | 0, _, _, _ => .error .malformed
  | fuel + 1, room, acc, cs =>
    match skip cs with
    | '"' :: rest =>
      match readString d (rest.length + 1) [] rest with
      | .error f => .error f
      | .ok (key, rest) =>
        match skip rest with
        | ':' :: rest =>
          match readValue d fuel room rest with
          | .error f => .error f
          | .ok (v, rest) =>
            match skip rest with
            | ',' :: rest => readMembers d fuel room (store key v acc) rest
            | '\x7d' :: rest => .ok (store key v acc, rest)
            | _ => .error .malformed
        | _ => .error .malformed
    | _ => .error .malformed

end

def parse (d : Dialect) (text : String) : Except SyntaxFault Json :=
  let cs := text.toList
  match readValue d (2 * cs.length + 2) d.depth cs with
  | .error f => .error f
  | .ok (v, rest) => if skip rest = [] then .ok v else .error .malformed

end SchemaDiagram.Json

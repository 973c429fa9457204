/-
# The outline of a JSON text

A reader that knows which shape it wants stops at the first problem it meets, and which problem
that is depends on what it does with each part: a value of a wanted type is read strictly, a
value that nobody wants is skipped with fewer checks, the name of a variant has to be a string.

The outline of a text keeps what all of these readers need.  `Outline.scan` is total and never
fails: problems become nodes of the outline, at the place where they stand, and a reader meets
them when it gets there.

* `Outline.skip` is the reader that wants nothing.
* `Outline.toJson` is the reader that wants any value.
* `Outline.found` names what stands at a place, for messages.
* `Outline.ofJson` is the outline of a value that is already there.
-/
import Punter.Json.Value
import Punter.Json.Fault
import Punter.Text.Hex

namespace Punter

open Number

/-- The value of a number in a text: an integer of at most 64 bits, or any other number. -/
inductive Json.Number (α : Type) where
  | int (n : Int)
  | real (x : α)

/-- Why nothing can be read at a place, for each kind of reader. -/
structure Break where
  /-- for one that wants a value -/
  strict : Fault
  /-- for one that skips -/
  lenient : Fault
  /-- for one that wants the name of a variant -/
  variant : Fault
  /-- for one that looks for `null` first, where it does not get past that -/
  null : Option Fault

/-- A JSON text as far as it can be read. -/
inductive Outline (α : Type) where
  | null
  | bool (b : Bool)
  /-- A number, unless it is out of range. -/
  | number (value : Except Fault (Json.Number α))
  /-- A string, unless an escape in it denotes no character. -/
  | text (content : Except Fault String)
  /-- The items, and what follows the last one in place of the closing bracket. -/
  | array (items : List (Outline α)) (ending : Option Fault)
  /-- Keys and values, and what follows the last one in place of the closing brace. -/
  | object (members : List (Outline α × Outline α)) (ending : Option Fault)
  /-- Nothing can be read here. -/
  | broken (b : Break)
  /-- Something that is no string stands where a key should be. -/
  | misplaced (o : Outline α)

namespace Outline

variable {α : Type}

/-! ## Places where nothing can be read -/

/-- All readers meet the same fault. -/
def fails (f : Fault) : Outline α := broken ⟨f, f, f, none⟩

/-- The text ends where a value has to follow. -/
def missing : Outline α := fails (.truncated .value)

/-- Something stands here that begins no value. -/
def stray : Outline α := fails (.malformed .noValue)

/-- Something stands here that begins a value which then has a fault.  A reader that wants the
name of a variant does not get that far. -/
def spoilt (strict lenient : Fault) : Outline α :=
  broken ⟨strict, lenient, .malformed .noValue, none⟩

/-- The result of scanning one value: its outline, and the rest of the text unless scanning
stopped. -/
abbrev Scan (α : Type) := Outline α × Option (List Char)

/-! ## Blanks and words -/

/-- Blanks between the tokens of a text. -/
def isBlank (c : Char) : Bool := c = ' ' || c = '\n' || c = '\t' || c = '\r'

/-- The text from the first token on. -/
def skipBlanks (cs : List Char) : List Char := cs.dropWhile isBlank

/-- A word that begins like that for a value, and then has a fault. -/
def spoiltWord (value : Outline α) (f : Fault) : Outline α :=
  broken ⟨f, f, .malformed .noValue, match value with
    | null => some f
    | _ => none⟩

/-- The rest of one of the words `null`, `true` and `false`, after its first letter. -/
def scanWord (value : Outline α) : List Char → List Char → Scan α
  | [], cs => (value, some cs)
  | _ :: _, [] => (spoiltWord value (.truncated .value), none)
  | w :: ws, c :: cs =>
    if c = w then scanWord value ws cs else (spoiltWord value (.malformed .wrongWord), none)

/-! ## Numbers -/

/-- The digits in front of a text, and the rest. -/
def spanDigits (cs : List Char) : List Char × List Char :=
  (cs.takeWhile isDigit, cs.dropWhile isDigit)

/-- Digits have to follow, and do not: the text ends, or something else follows. -/
def digitless (rest : List Char) : Scan α :=
  (spoilt (if rest.isEmpty then .truncated .value else .malformed .badNumber)
    (.malformed .badNumber), none)

/-- The number nearest to `± digits * 10 ^ exponent`. -/
def realNumber [Scalar α] (negative : Bool) (d : Decimal) : Except Fault (Json.Number α) :=
  match Scalar.ofDecimal negative d with
  | some x => .ok (.real x)
  | none => .error (.malformed .numberOutOfRange)

/-- The number written without point and exponent: an integer if it fits into 64 bits and is
not negative zero. -/
def wholeNumber [Scalar α] (negative : Bool) (n : Nat) : Except Fault (Json.Number α) :=
  if negative then
    if n = 0 ∨ UInt64.size < 2 * n then realNumber true ⟨n, 0⟩ else .ok (.int (-n))
  else if n < UInt64.size then .ok (.int n) else realNumber false ⟨n, 0⟩

/-- The exponent, if there is one, and the end of a number. -/
def scanExponent [Scalar α] (negative : Bool) (whole fraction : List Char) (pointed : Bool)
    (cs : List Char) : Scan α :=
  let mantissa := ofDigits (whole ++ fraction)
  match cs with
  | c :: rest =>
    if c = 'e' ∨ c = 'E' then
      let (minus, rest) := match rest with
        | '+' :: r => (false, r)
        | '-' :: r => (true, r)
        | r => (false, r)
      match spanDigits rest with
      | ([], rest) => digitless rest
      | (ds, rest) =>
        let e : Int := ofDigits ds
        let e := (if minus then -e else e) - fraction.length
        (number (realNumber negative ⟨mantissa, e⟩), some rest)
    else if pointed then (number (realNumber negative ⟨mantissa, -fraction.length⟩), some cs)
    else (number (wholeNumber negative mantissa), some cs)
  | [] =>
    if pointed then (number (realNumber negative ⟨mantissa, -fraction.length⟩), some [])
    else (number (wholeNumber negative mantissa), some [])

/-- The places behind the point, if there is one, and the rest of a number. -/
def scanFraction [Scalar α] (negative : Bool) (whole cs : List Char) : Scan α :=
  match cs with
  | '.' :: rest =>
    match spanDigits rest with
    | ([], rest) => digitless rest
    | (ds, rest) => scanExponent negative whole ds true rest
  | cs => scanExponent negative whole [] false cs

/-- A number after its sign.  Its whole part is `0` or begins with another digit. -/
def scanNumber [Scalar α] (negative : Bool) (cs : List Char) : Scan α :=
  match spanDigits cs with
  | ([], rest) => digitless rest
  | (['0'], rest) => scanFraction negative ['0'] rest
  | ('0' :: _, _) => (spoilt (.malformed .badNumber) (.malformed .badNumber), none)
  | (ds, rest) => scanFraction negative ds rest

/-! ## Strings -/

/-- The first half of a pair that denotes one character. -/
def isHighHalf (n : Nat) : Bool := 0xd800 ≤ n && n < 0xdc00

/-- The second half of such a pair. -/
def isLowHalf (n : Nat) : Bool := 0xdc00 ≤ n && n < 0xe000

/-- The character denoted by a pair. -/
def joinHalves (high low : Nat) : Char :=
  Char.ofNat (0x10000 + (high - 0xd800) * 0x400 + (low - 0xdc00))

/-- The characters that a backslash may stand in front of, with what they denote. -/
def unescape : Char → Option Char
  | '"' => some '"'
  | '\\' => some '\\'
  | '/' => some '/'
  | 'b' => some (Char.ofNat 8)
  | 'f' => some (Char.ofNat 12)
  | 'n' => some '\n'
  | 'r' => some '\r'
  | 't' => some '\t'
  | _ => none

/-- A string that breaks off with a fault.  A reader that wants its content meets an earlier
fault first. -/
def brokenText (earlier : Option Fault) (f : Fault) : Scan α :=
  let strict := earlier.getD f
  (broken ⟨strict, f, strict, none⟩, none)

/-- Four hexadecimal digits have to follow, and do not: too few bytes are left, or others. -/
def hexless (earlier : Option Fault) (rest : List Char) : Scan α :=
  brokenText earlier
    (if (String.ofList rest).utf8ByteSize < 4 then .truncated .string else .malformed .badEscape)

/-- The first fault, when a first half may be pending and something else than an escape for its
second half follows: `m` says what. -/
def unpaired (m : Malformation) (half : Option Nat) (earlier : Option Fault) : Option Fault :=
  match half with
  | none => earlier
  | some _ => earlier <|> some (.malformed m)

/-- The inside of a string up to its closing quote.  `content` holds the characters so far in
reverse, `half` the first half of a pair whose second half has to follow, and `earlier` the
first fault of an escape that denotes no character. -/
def scanText (content : List Char) (half : Option Nat) (earlier : Option Fault) :
    List Char → Scan α
  | [] => brokenText earlier (.truncated .string)
  | '"' :: rest =>
    (text (match unpaired .endOfHalf half earlier with
      | none => .ok (String.ofList content.reverse)
      | some f => .error f), some rest)
  | '\\' :: 'u' :: a :: b :: c :: d :: rest =>
    match Text.ofHex [a, b, c, d], half with
    | none, _ => hexless earlier (a :: b :: c :: d :: rest)
    | some n, some h =>
      if isLowHalf n then scanText (joinHalves h n :: content) none earlier rest
      else scanText content none (unpaired .unpairedHalf half earlier) rest
    | some n, none =>
      if isHighHalf n then scanText content (some n) earlier rest
      else if isLowHalf n then
        scanText content none (earlier <|> some (.malformed .unpairedHalf)) rest
      else scanText (Char.ofNat n :: content) none earlier rest
  | '\\' :: 'u' :: rest => hexless earlier rest
  | ['\\'] => brokenText earlier (.truncated .string)
  | '\\' :: c :: rest =>
    let earlier := unpaired .endOfHalf half earlier
    match unescape c with
    | some x => scanText (x :: content) none earlier rest
    | none => brokenText earlier (.malformed .badEscape)
  | c :: rest =>
    let earlier := unpaired .endOfHalf half earlier
    if c.toNat < 32 then brokenText earlier (.malformed .controlCharacter)
    else scanText (c :: content) none earlier rest

/-! ## Values -/

/-- The text ends where a key has to follow: that of the first member, or one after a comma. -/
def noKey (first : Bool) : Outline α :=
  broken ⟨.truncated (if first then .object else .value), .truncated .object, .truncated .value,
    none⟩

/-- The end of an object or array stands where something has to follow a comma.  One that skips
sees another fault. -/
def afterComma (lenient : Malformation) : Outline α :=
  broken ⟨.malformed .trailingComma, .malformed lenient, .malformed .trailingComma, none⟩

/-- The key of a member.  Anything but a string is misplaced. -/
def scanKey (first : Bool) (scanned : Scan α) (cs : List Char) : Scan α :=
  match cs with
  | [] => (noKey first, none)
  | '"' :: rest => scanText [] none none rest
  | '\x7d' :: _ => (afterComma .keyNotString, none)
  | _ => (misplaced scanned.1, none)

/-- What stands in place of an item that does not begin. -/
def noItem (first : Bool) (cs : List Char) : Option (Outline α) :=
  match cs with
  | [] => some (if first then fails (.truncated .list) else missing)
  | ']' :: _ => some (afterComma .noValue)
  | _ => none

mutual

/-- The value in front of a text.  The first argument bounds the depth of the recursion. -/
def scanValue [Scalar α] : Nat → List Char → Scan α
  | 0, _ => (stray, none)
  | n + 1, cs =>
    match skipBlanks cs with
    | [] => (missing, none)
    | 'n' :: rest => scanWord null ['u', 'l', 'l'] rest
    | 't' :: rest => scanWord (bool true) ['r', 'u', 'e'] rest
    | 'f' :: rest => scanWord (bool false) ['a', 'l', 's', 'e'] rest
    | '-' :: rest => scanNumber true rest
    | '"' :: rest => scanText [] none none rest
    | '[' :: rest =>
      match skipBlanks rest with
      | ']' :: rest => (array [] none, some rest)
      | rest =>
        let (items, ending, rest) := scanItems true n rest
        (array items ending, rest)
    | '\x7b' :: rest =>
      match skipBlanks rest with
      | '\x7d' :: rest => (object [] none, some rest)
      | rest =>
        let (members, ending, rest) := scanMembers true n rest
        (object members ending, rest)
    | c :: rest => if isDigit c then scanNumber false (c :: rest) else (stray, none)

/-- The items of an array from the next one on. -/
def scanItems [Scalar α] (first : Bool) :
    Nat → List Char → List (Outline α) × Option Fault × Option (List Char)
  | 0, _ => ([stray], none, none)
  | n + 1, cs =>
    match noItem first (skipBlanks cs) with
    | some x => ([x], none, none)
    | none =>
      match scanValue n cs with
      | (x, none) => ([x], none, none)
      | (x, some rest) =>
        match skipBlanks rest with
        | ']' :: rest => ([x], none, some rest)
        | ',' :: rest =>
          let (xs, ending, rest) := scanItems false n rest
          (x :: xs, ending, rest)
        | [] => ([x], some (.truncated .list), none)
        | _ => ([x], some (.malformed .afterItem), none)

/-- The members of an object from the next one on. -/
def scanMembers [Scalar α] (first : Bool) :
    Nat → List Char → List (Outline α × Outline α) × Option Fault × Option (List Char)
  | 0, _ => ([(stray, stray)], none, none)
  | n + 1, cs =>
    match scanKey first (scanValue n cs) (skipBlanks cs) with
    | (key, none) => ([(key, stray)], none, none)
    | (key, some rest) =>
      match skipBlanks rest with
      | ':' :: rest =>
        match scanValue n rest with
        | (x, none) => ([(key, x)], none, none)
        | (x, some rest) =>
          match skipBlanks rest with
          | '\x7d' :: rest => ([(key, x)], none, some rest)
          | ',' :: rest =>
            let (ms, ending, rest) := scanMembers false n rest
            ((key, x) :: ms, ending, rest)
          | [] => ([(key, x)], some (.truncated .object), none)
          | _ => ([(key, x)], some (.malformed .afterMember), none)
      | [] => ([(key, fails (.truncated .object))], none, none)
      | _ => ([(key, fails (.malformed .noColon))], none, none)

end

/-- The outline of the value in front of a text, and what follows it. -/
def scan [Scalar α] (cs : List Char) : Scan α := scanValue (2 * cs.length + 2) cs

/-! ## Readers that want no particular shape -/

mutual

/-- The fault that skipping meets, if any. -/
def skip : Outline α → Option Fault
  | array items ending => skipItems items <|> ending
  | object members ending => skipMembers members <|> ending
  | broken b => some b.lenient
  | misplaced _ => some (.malformed .keyNotString)
  | _ => none

/-- The fault that skipping items meets, if any. -/
def skipItems : List (Outline α) → Option Fault
  | [] => none
  | x :: xs => skip x <|> skipItems xs

/-- The fault that skipping members meets, if any. -/
def skipMembers : List (Outline α × Outline α) → Option Fault
  | [] => none
  | (k, x) :: ms => skip k <|> (skip x <|> skipMembers ms)

end

/-- The content of a key. -/
def key : Outline α → Except Fault String
  | text content => content
  | broken b => .error b.strict
  | _ => .error (.malformed .keyNotString)

/-- What follows the last item or member in place of the closing bracket. -/
def finish {T : Type} (ending : Option Fault) (x : T) : Except Fault T :=
  match ending with
  | none => .ok x
  | some f => .error f

mutual

/-- Any value, of at most `depth` levels of arrays and objects. -/
def toJson (depth : Nat) : Outline α → Except Fault (Json α)
  | null => .ok .null
  | bool b => .ok (.bool b)
  | number (.ok (.int n)) => .ok (.int n)
  | number (.ok (.real x)) => .ok (.num x)
  | number (.error f) => .error f
  | text (.ok s) => .ok (.str s)
  | text (.error f) => .error f
  | array items ending =>
    match depth with
    | 0 => .error (.malformed .tooDeep)
    | d + 1 => do
      let xs ← toJsonItems d items
      finish ending (.arr xs)
  | object members ending =>
    match depth with
    | 0 => .error (.malformed .tooDeep)
    | d + 1 => do
      let ms ← toJsonMembers d members
      finish ending (.obj (Json.canonical ms))
  | broken b => .error b.strict
  | misplaced _ => .error (.malformed .keyNotString)

/-- Any items. -/
def toJsonItems (depth : Nat) : List (Outline α) → Except Fault (List (Json α))
  | [] => .ok []
  | x :: xs => do
    let v ← toJson depth x
    let vs ← toJsonItems depth xs
    return v :: vs

/-- Any members, in the order of the text. -/
def toJsonMembers (depth : Nat) :
    List (Outline α × Outline α) → Except Fault (List (String × Json α))
  | [] => .ok []
  | (k, x) :: ms => do
    let name ← key k
    let v ← toJson depth x
    let vs ← toJsonMembers depth ms
    return (name, v) :: vs

end

/-- What stands at a place, for a message that wanted something else. -/
def found [Scalar α] : Outline α → Except Fault Found
  | null => .ok .null
  | bool b => .ok (.bool b)
  | number (.ok (.int n)) => .ok (.integer n)
  | number (.ok (.real x)) => .ok (.number (Scalar.jsonText x))
  | number (.error f) => .error f
  | text (.ok s) => .ok (.str s)
  | text (.error f) => .error f
  | array _ _ => .ok .sequence
  | object _ _ => .ok .map
  | broken b => .error b.strict
  | misplaced _ => .error (.malformed .keyNotString)

/-- Refuses what stands at a place because `expected` was wanted. -/
def refuse [Scalar α] {T : Type} (o : Outline α) (expected : String) : Except Fault T :=
  match o.found with
  | .ok f => .error (.mismatch (.invalidType f expected))
  | .error f => .error f

/-! ## Values that are already there -/

mutual

/-- The outline of a value. -/
def ofJson : Json α → Outline α
  | .null => null
  | .bool b => bool b
  | .int n => number (.ok (.int n))
  | .num x => number (.ok (.real x))
  | .str s => text (.ok s)
  | .arr items => array (ofJsonItems items) none
  | .obj members => object (ofJsonMembers members) none

/-- The outlines of items. -/
def ofJsonItems : List (Json α) → List (Outline α)
  | [] => []
  | x :: xs => ofJson x :: ofJsonItems xs

/-- The outlines of members. -/
def ofJsonMembers : List (String × Json α) → List (Outline α × Outline α)
  | [] => []
  | (k, v) :: ms => (text (.ok k), ofJson v) :: ofJsonMembers ms

end

end Outline

end Punter

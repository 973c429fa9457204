/-
# Codecs

A codec for a type is a writer, which gives a JSON value, and a reader, which works on the
outline of a text or of a value.  Records are described once, by their list of fields, and the
writer and the readers are interpretations of that description: a record may be given as an
object, with its fields in any order, or as an array of its fields in their order.

A reader reports the first problem in the order of the text.  The three places a value can come
from differ in a few decisions, which are the cases of `Origin`.
-/
import Punter.Json.Outline
import Punter.Json.Printer

namespace Punter

open Number

/-- Where a value comes from. -/
inductive Origin where
  /-- It is read from a text. -/
  | text
  /-- It is a JSON value already. -/
  | value
  /-- It was set aside while the rest of an object was read. -/
  | buffer
  deriving DecidableEq, Repr

/-- The origin of a value, and how many levels of arrays and objects may still be opened. -/
structure Reading where
  origin : Origin
  depth : Nat

namespace Reading

/-- Texts may have at most this many levels. -/
def maxDepth : Nat := 127

/-- The reading of a whole text. -/
def ofText : Reading := ⟨.text, maxDepth⟩

/-- The reading of a value. -/
def ofValue : Reading := ⟨.value, maxDepth⟩

/-- Opens an array or an object.  Only texts have a limit. -/
def enter (r : Reading) : Except Fault Reading :=
  match r.origin, r.depth with
  | .text, 0 => .error (.malformed .tooDeep)
  | .text, d + 1 => .ok ⟨.text, d⟩
  | _, _ => .ok r

end Reading

/-- A writer and a reader for the type `T`. -/
structure Codec (α T : Type) where
  read : Reading → Outline α → Except Fault T
  write : T → Json α

namespace Codec

variable {α T : Type} [Scalar α]

/-! ## Whole texts -/

/-- Reads a text. -/
def ofText (c : Codec α T) (s : String) : Except Fault T :=
  let (o, rest) := Outline.scan s.toList
  match c.read .ofText o, rest with
  | .error f, _ => .error f
  | .ok v, some rest =>
    if (Outline.skipBlanks rest).isEmpty then .ok v else .error (.malformed .trailingCharacters)
  | .ok _, none => .error (.malformed .trailingCharacters)

/-- Reads a value. -/
def ofJson (c : Codec α T) (v : Json α) : Except Fault T := c.read .ofValue (.ofJson v)

/-- Writes a text without blanks. -/
def toText (c : Codec α T) (v : T) : String := (c.write v).compact

/-! ## Scalars -/

/-- `true` and `false`. -/
def bool : Codec α Bool where
  read _ o := match o with
    | .bool b => .ok b
    | o => o.refuse "a boolean"
  write b := .bool b

/-- Any number. -/
def scalar : Codec α α where
  read _ o := match o with
    | .number (.ok (.int n)) => .ok (Scalar.ofInt n)
    | .number (.ok (.real x)) => .ok x
    | o => o.refuse "f64"
  write x := .ofScalar x

/-- A count of at most `bound`. -/
def count (name : String) (bound : Nat) : Codec α Nat where
  read _ o := match o with
    | .number (.ok (.int n)) =>
      if 0 ≤ n ∧ n ≤ bound then .ok n.toNat
      else .error (.mismatch (.invalidValue (.integer n) name))
    | o => o.refuse name
  write n := .ofNat n

/-- A count of 64 bits. -/
def count64 : Codec α Nat := count "u64" (UInt64.size - 1)

/-- A count of 32 bits. -/
def count32 : Codec α Nat := count "u32" (UInt32.size - 1)

/-- A number of things in memory. -/
def size : Codec α Nat := count "usize" (UInt64.size - 1)

/-- Any string, described in messages as `expected`. -/
def stringNamed (expected : String) : Codec α String where
  read _ o := match o with
    | .text (.ok s) => .ok s
    | o => o.refuse expected
  write s := .str s

/-- Any string. -/
def string : Codec α String := stringNamed "a string"

/-- The path of a file. -/
def path : Codec α String := stringNamed "path string"

/-- A string of a special form.  `thing` names the form in messages, and `reason` says what is
wrong with a string. -/
def special (thing : String) (parse : String → Option T) (reason : String → String)
    (print : T → String) : Codec α T where
  read _ o := match o with
    | .text (.ok s) => match parse s with
      | some v => .ok v
      | none => .error (.mismatch (.badText (reason s)))
    | o => o.refuse thing
  write v := .str (print v)

/-! ## Free-form data -/

/-- Any value. -/
def any : Codec α (Json α) where
  read r o := o.toJson r.depth
  write v := v

/-- Any object. -/
def anyObject : Codec α (List (String × Json α)) where
  read r o := match o with
    | .object members ending => do
      let r ← r.enter
      let ms ← Outline.toJsonMembers r.depth members
      Outline.finish ending (Json.canonical ms)
    | o => o.refuse "a map"
  write ms := .obj ms

/-! ## Options and lists -/

/-- A value that may be `null`. -/
def option (c : Codec α T) : Codec α (Option T) where
  read r o := match o with
    | .null => .ok none
    | .broken ⟨_, _, _, some f⟩ => .error f
    | o => (c.read r o).map some
  write := Json.ofOption c.write

/-- Reads all items. -/
def readAll (c : Codec α T) (r : Reading) : List (Outline α) → Except Fault (List T)
  | [] => .ok []
  | o :: os => do
    let v ← c.read r o
    let vs ← readAll c r os
    return v :: vs

/-- A list of values. -/
def list (c : Codec α T) : Codec α (List T) where
  read r o := match o with
    | .array items ending => do
      let r ← r.enter
      let vs ← readAll c r items
      Outline.finish ending vs
    | o => o.refuse "a sequence"
  write vs := .arr (vs.map c.write)

/-! ## Variants -/

/-- The variant with a name.  `other` is the one for unknown names, if there is one. -/
def variantOf (variants : List (String × T)) (other : Option T) (name : String) :
    Except Fault T :=
  match variants.find? (fun v => v.1 = name), other with
  | some v, _ => .ok v.2
  | none, some v => .ok v
  | none, none => .error (.mismatch (.unknownVariant name (variants.map (·.1))))

/-- A variant name where the key of an object should be. -/
def variantKey : Outline α → Except Fault String
  | .text content => content
  | .broken b => .error b.variant
  | .misplaced o => o.refuse "variant identifier"
  | o => o.refuse "variant identifier"

/-- What may follow the name of a variant that carries nothing. -/
def nothing (o : Outline α) : Except Fault Unit :=
  match o with
  | .null => .ok ()
  | o => o.refuse "unit"

/-- What follows the only member of an object for a variant.  Nothing may follow it, not even
another member. -/
def variantEnd (more : Bool) (ending : Option Fault) : Option Fault :=
  match more, ending with
  | false, some (.malformed _) => some (.malformed .noValue)
  | false, ending => ending
  | true, _ => some (.malformed .noValue)

/-- A type of variants that carry nothing: their names, or an object from the name to `null`. -/
def variants (all : List (String × T)) (other : Option T) (label : T → String) : Codec α T where
  read r o := match o with
    | .text (.ok s) => variantOf all other s
    | .text (.error f) => .error f
    | .object members ending => match r.origin with
      | .text => do
        let _ ← r.enter
        match members with
        | [] => .error (.malformed .noValue)
        | (k, v) :: rest =>
          let name ← variantKey k
          let t ← variantOf all other name
          nothing v
          Outline.finish (variantEnd (!rest.isEmpty) ending) t
      | _ => match members with
        | [(k, v)] => do
          let name ← variantKey k
          let t ← variantOf all other name
          nothing v
          return t
        | _ => .error (.mismatch (.invalidValue .map "map with a single key"))
    | .broken b => .error b.variant
    | o => match r.origin with
      | .text => .error (.malformed .noValue)
      | _ => o.refuse "string or map"
  write t := .str (label t)

end Codec

/-! ## Records -/

/-- What a field that is not there means. -/
inductive Absent (T : Type) where
  /-- It has to be there. -/
  | required
  /-- An object may lack it, and then it has this value. -/
  | optional (v : T)
  /-- An object or array may lack it, and then it has this value. -/
  | standard (v : T)

/-- A field of a record. -/
structure Field (α T : Type) where
  name : String
  codec : Codec α T
  absent : Absent T
  /-- Other names under which the field is read. -/
  aliases : List String
  /-- The values that are not written. -/
  omits : T → Bool

namespace Field

variable {α T : Type}

/-- A field that has to be there. -/
def required (name : String) (codec : Codec α T) : Field α T :=
  ⟨name, codec, .required, [], fun _ => false⟩

/-- A field with a value of its own where it is missing. -/
def standard (name : String) (codec : Codec α T) (v : T) : Field α T :=
  ⟨name, codec, .standard v, [], fun _ => false⟩

/-- A field that may be missing or `null`. -/
def optional (name : String) (codec : Codec α T) : Field α (Option T) :=
  ⟨name, codec.option, .optional none, [], fun _ => false⟩

/-- The same field, not written where its value is missing. -/
def whenSome (f : Field α (Option T)) : Field α (Option T) := { f with omits := Option.isNone }

/-- The same field, which an array may lack as well. -/
def orAbsent (f : Field α T) (v : T) : Field α T := { f with absent := .standard v }

/-- The same field, read under another name too. -/
def orNamed (f : Field α T) (name : String) : Field α T :=
  { f with aliases := name :: f.aliases }

/-- Whether a key is a name of the field. -/
def hasName (f : Field α T) (key : String) : Bool := key == f.name || f.aliases.contains key

end Field

/-- The fields of a record in their order.  The values of the fields form nested pairs; the
values read so far form nested pairs of options. -/
inductive Fields (α : Type) : Type → Type → Type 1 where
  | nil : Fields α Unit Unit
  | cons {T R S : Type} (f : Field α T) (fs : Fields α R S) : Fields α (T × R) (Option T × S)

namespace Fields

variable {α : Type}

/-- How many fields there are. -/
def length {R S : Type} : Fields α R S → Nat
  | nil => 0
  | cons _ fs => fs.length + 1

/-- No field has been read. -/
def empty {R S : Type} : Fields α R S → S
  | nil => ()
  | cons _ fs => (none, fs.empty)

/-- Whether a key is the name of a field. -/
def hasName {R S : Type} : Fields α R S → String → Bool
  | nil, _ => false
  | cons f fs, key => f.hasName key || fs.hasName key

/-- Reads the value of the field with a name.  A field is read at most once; the value of an
unknown field is skipped. -/
def fill (r : Reading) (key : String) (o : Outline α) {R S : Type} :
    Fields α R S → S → Except Fault S
  | nil, slots => match r.origin with
    | .text => Outline.finish o.skip slots
    | _ => .ok slots
  | cons f fs, (slot, slots) =>
    if f.hasName key then
      match slot with
      | some _ => .error (.mismatch (.duplicateField f.name))
      | none => (f.codec.read r o).map fun v => (some v, slots)
    else (fill r key o fs slots).map fun slots => (slot, slots)

/-- Reads the members of an object. -/
def fillAll {R S : Type} (r : Reading) (fs : Fields α R S) (slots : S) :
    List (Outline α × Outline α) → Except Fault S
  | [] => .ok slots
  | (k, o) :: rest => do
    let key ← k.key
    let slots ← fill r key o fs slots
    fillAll r fs slots rest

/-- The value of a field that was read, or what its absence means. -/
def resolve {T : Type} (f : Field α T) : Option T → Except Fault T
  | some v => .ok v
  | none => match f.absent with
    | .required => .error (.mismatch (.missingField f.name))
    | .optional v => .ok v
    | .standard v => .ok v

/-- The values of all fields, with those that are missing filled in. -/
def complete {R S : Type} : Fields α R S → S → Except Fault R
  | nil, _ => .ok ()
  | cons f fs, (slot, slots) => do
    let v ← resolve f slot
    let vs ← complete fs slots
    return (v, vs)

/-- Reads the fields from the items of an array, and gives the items left over.  `index` is the
number of items read so far. -/
def readItems (r : Reading) (whole : String) (ending : Option Fault) {R S : Type} :
    Nat → Fields α R S → List (Outline α) → Except Fault (R × List (Outline α))
  | _, nil, os => .ok ((), os)
  | index, cons f fs, o :: os => do
    let v ← f.codec.read r o
    let (vs, rest) ← readItems r whole ending (index + 1) fs os
    return ((v, vs), rest)
  | index, cons f fs, [] =>
    match ending, f.absent with
    | some fault, _ => .error fault
    | none, .standard v => do
      let (vs, rest) ← readItems r whole ending (index + 1) fs []
      return ((v, vs), rest)
    | none, _ => .error (.mismatch (.invalidLength index whole))

/-- The members written for the values of the fields. -/
def members {R S : Type} : Fields α R S → R → List (String × Json α)
  | nil, _ => []
  | cons f fs, (v, vs) =>
    if f.omits v then members fs vs else (f.name, f.codec.write v) :: members fs vs

end Fields

/-- A number of elements. -/
def elements (n : Nat) : String := if n = 1 then "1 element" else numeral n ++ " elements"

namespace Codec

variable {α T : Type} [Scalar α]

/-- What follows the last field of a record in an array.  Nothing may follow it, not even a
comma. -/
def arrayEnd (rest : List (Outline α)) (ending : Option Fault) : Option Fault :=
  match rest, ending with
  | [], some (.malformed _) => some (.malformed .trailingCharacters)
  | [], ending => ending
  | .broken ⟨.malformed .trailingComma, _, _, _⟩ :: _, _ => some (.malformed .trailingComma)
  | _ :: _, _ => some (.malformed .trailingCharacters)

/-- The items left over when all fields of a record have been read from an array of `total`
items. -/
def noneLeft (r : Reading) (rest : List (Outline α)) (ending : Option Fault) (total fields : Nat)
    (v : T) : Except Fault T :=
  if rest.isEmpty then Outline.finish (arrayEnd rest ending) v
  else match r.origin with
    | .text => Outline.finish (arrayEnd rest ending) v
    | .value => .error (.mismatch (.invalidLength total "fewer elements in array"))
    | .buffer => .error (.mismatch (.invalidLength total (elements fields ++ " in sequence")))

/-- Reads a record from the members of an object. -/
def readObject {R S : Type} (r : Reading) (fs : Fields α R S)
    (members : List (Outline α × Outline α)) (ending : Option Fault) : Except Fault R := do
  let slots ← fs.fillAll r fs.empty members
  let slots ← Outline.finish ending slots
  fs.complete slots

/-- Reads a record from the items of an array. -/
def readArray {R S : Type} (r : Reading) (what : String) (fs : Fields α R S)
    (items : List (Outline α)) (ending : Option Fault) : Except Fault R := do
  let whole := what ++ " with " ++ elements fs.length
  let (v, rest) ← fs.readItems r whole ending 0 items
  noneLeft r rest ending items.length fs.length v

/-- A record.  Messages name it `what`; `make` and `parts` relate the type to the values of its
fields. -/
def record {R S : Type} (what : String) (fs : Fields α R S) (make : R → T) (parts : T → R) :
    Codec α T where
  read r o := match o with
    | .object members ending => do
      let r ← r.enter
      return make (← readObject r fs members ending)
    | .array items ending => do
      let r ← r.enter
      return make (← readArray r what fs items ending)
    | o => o.refuse what
  write v := .obj (fs.members (parts v))

end Codec

end Punter

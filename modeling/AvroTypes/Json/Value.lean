import AvroTypes.Decimal.Shortest

/-!
# JSON values

A value keeps everything that a later stage can observe: the order of the members of an object,
and which of its two kinds a number is.  A number written without fraction and exponent that fits
64 bits is an integer; every other number is a double, kept as its bits so that values can be
compared.

* `Value`, `Number` — the data.
* `lookup?`, `present?` — a member by its key; a member that is `null` counts as absent.
* `setMember`, `ofMembers` — a repeated key replaces the value and keeps the first position.
* `Kind` — the six kinds of values, with the words that messages use for them.
-/

namespace AvroTypes.Json

/-- A JSON number. -/
inductive Number where
  /-- A number without fraction and exponent. -/
  | integer (n : Int)
  /-- Any other number, as the bits of the double that it is read as. -/
  | double (bits : UInt64)
  deriving DecidableEq, Repr

/-- A JSON value; the members of an object are in the order of the text. -/
inductive Value where
  | null
  | bool (b : Bool)
  | number (n : Number)
  | string (s : String)
  | array (elements : List Value)
  | object (members : List (String × Value))
  deriving Repr, Inhabited, BEq

/-- The members of an object. -/
abbrev Members := List (String × Value)

/-- The value under a key. -/
def lookup? (members : Members) (key : String) : Option Value := members.lookup key

/-- The value under a key, where `null` says that there is none. -/
def present? (members : Members) (key : String) : Option Value :=
  match lookup? members key with
  | some .null => none
  | found => found

/-- The members with a value put under a key: in the place of the key, or at the end if it is
new. -/
def setMember (key : String) (value : Value) : Members → Members
  | [] => [(key, value)]
  | (k, v) :: rest =>
    if k = key then (key, value) :: rest else (k, v) :: setMember key value rest

/-- **The members that a text denotes** which spells out the given keys and values in this
order. -/
def ofMembers (spelled : List (String × Value)) : Members :=
  spelled.foldl (fun members (key, value) => setMember key value members) []

/-- The kinds of values. -/
inductive Kind where
  | null | boolean | number | string | array | object
  deriving DecidableEq, Repr

/-- The kind of a value. -/
def Value.kind : Value → Kind
  | .null => .null
  | .bool _ => .boolean
  | .number _ => .number
  | .string _ => .string
  | .array _ => .array
  | .object _ => .object

/-- The words for something of a kind. -/
def Kind.describe : Kind → String
  | .null => "null"
  | .boolean => "a boolean"
  | .number => "a number"
  | .string => "a string"
  | .array => "an array"
  | .object => "an object"

end AvroTypes.Json

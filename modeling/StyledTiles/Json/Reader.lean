import StyledTiles.Json.Token

/-!
# Reading JSON

The syntactic half of reading JSON: a document is one value and nothing after it. Of two faults in a
text, the one that comes first is reported. Of two members with one key, the last one counts.

Strings are made of characters: an escaped surrogate without its partner is read as the replacement
character, in keys as well as in values.
-/
namespace StyledTiles

namespace Json

/-- Why a text is not a JSON document. -/
inductive Fault where
  | malformed
  | constant (c : Constant)
  | longInteger (digits : Nat)
deriving DecidableEq, Repr

namespace Reader

mutual

/-- The value at the head of the tokens, and the tokens after it. -/
def value : Nat → List Token → Except Fault (Json × List Token)
  | 0, _ => .error .malformed
  | _ + 1, [] => .error .malformed
  | fuel + 1, t :: ts =>
    match t with
    | .null => .ok (.null, ts)
    | .bool b => .ok (.bool b, ts)
    | .num n => .ok (.num n, ts)
    | .str s => .ok (.str s, ts)
    | .constant c => .error (.constant c)
    | .longInteger digits => .error (.longInteger digits)
    | .openBracket =>
      match ts with
      | .closeBracket :: rest => .ok (.arr [], rest)
      | _ => (items fuel ts).map fun (vs, rest) => (.arr vs, rest)
    | .openBrace =>
      match ts with
      | .closeBrace :: rest => .ok (.obj [], rest)
      | _ => (members fuel ts).map fun (ms, rest) =>
        (.obj (ms.foldl (fun done (k, v) => setMember k v done) []), rest)
    | _ => .error .malformed

/-- The items of an array from one of them on, and the tokens after the closing bracket. -/
def items : Nat → List Token → Except Fault (List Json × List Token)
  | 0, _ => .error .malformed
  | fuel + 1, ts =>
    match value fuel ts with
    | .error e => .error e
    | .ok (v, .comma :: rest) => (items fuel rest).map fun (vs, after) => (v :: vs, after)
    | .ok (v, .closeBracket :: rest) => .ok ([v], rest)
    | .ok _ => .error .malformed

/-- The members of an object from one of them on, and the tokens after the closing brace. -/
def members : Nat → List Token → Except Fault (Members × List Token)
  | 0, _ => .error .malformed
  | fuel + 1, .str key :: .colon :: ts =>
    match value fuel ts with
    | .error e => .error e
    | .ok (v, .comma :: rest) => (members fuel rest).map fun (ms, after) => ((key, v) :: ms, after)
    | .ok (v, .closeBrace :: rest) => .ok ([(key, v)], rest)
    | .ok _ => .error .malformed
  | _ + 1, _ => .error .malformed

end

/-- A document's tokens. Every second step takes a token, which bounds the steps. -/
def document (ts : List Token) : Except Fault Json :=
  match value (2 * ts.length + 1) ts with
  | .error e => .error e
  | .ok (v, []) => .ok v
  | .ok _ => .error .malformed

end Reader

/-- Reads a JSON document. -/
def read (s : String) : Except Fault Json := Reader.document (Token.scan s.toList)

end Json

end StyledTiles

import Schemata.Json.Token

/-!
# Reading JSON

`parse?` reads a text that holds exactly one value. The reader takes one token at a time and keeps
the containers that are still open in a list of frames, so nesting may be of any depth.
-/

namespace Schemata.Json

/-- An open container: what it holds so far, in reverse, and the key of the value being read. -/
inductive Frame where
  | array (elements : List Json)
  | object (fields : List (Option String × Json)) (key : Option String)

/-- What may come next, inside which open containers, the innermost first. -/
inductive Reading where
  | value (frames : List Frame)
  | elementOrEnd (frames : List Frame)
  | keyOrEnd (frames : List Frame)
  | key (fields : List (Option String × Json)) (frames : List Frame)
  | colon (fields : List (Option String × Json)) (key : Option String) (frames : List Frame)
  /-- A value is complete: a separator or an end follows it. -/
  | complete (j : Json) (frames : List Frame)

namespace Reading

/-- Takes the first token of a value. -/
def beginValue (frames : List Frame) : Token → Option Reading
  | .leftBracket => some (.elementOrEnd frames)
  | .leftBrace => some (.keyOrEnd frames)
  | .string s => some (.complete (.string s) frames)
  | .leaf j => some (.complete j frames)
  | _ => none

/-- Takes one token. -/
def step : Reading → Token → Option Reading
  | .value frames, t => beginValue frames t
  | .elementOrEnd frames, .rightBracket => some (.complete (.array []) frames)
  | .elementOrEnd frames, t => beginValue (.array [] :: frames) t
  | .keyOrEnd frames, .rightBrace => some (.complete (.object []) frames)
  | .keyOrEnd frames, .string k => some (.colon [] k frames)
  | .key fields frames, .string k => some (.colon fields k frames)
  | .colon fields k frames, .colon => some (.value (.object fields k :: frames))
  | .complete j (.array elements :: frames), .comma =>
    some (.value (.array (j :: elements) :: frames))
  | .complete j (.array elements :: frames), .rightBracket =>
    some (.complete (.array (j :: elements).reverse) frames)
  | .complete j (.object fields k :: frames), .comma => some (.key ((k, j) :: fields) frames)
  | .complete j (.object fields k :: frames), .rightBrace =>
    some (.complete (.object ((k, j) :: fields).reverse) frames)
  | _, _ => none

/-- The value read, once no container is open. -/
def result? : Reading → Option Json
  | .complete j [] => some j
  | _ => none

end Reading

/-- The value that a text spells. -/
def parse? (s : String) : Option Json := do
  let tokens ← tokens? s
  let reading ← tokens.foldlM Reading.step (.value [])
  reading.result?

end Schemata.Json

import XmlPointer.Path.Value
import XmlPointer.Path.NodeSet
import XmlPointer.Path.Bindings
import XmlPointer.Text.Blank
import XmlPointer.Text.Search

/-! # The core function library

The functions of XPath 1.0 on nodes, strings, booleans and numbers. A call first checks the
count of its arguments against the function's arity, then computes. Functions that need a
node-set refuse other values with their type; the optional argument of the name and string
functions defaults to the context node. -/
namespace XmlPointer.Path

/-- Where an expression is evaluated: the document, the context node with its position in
the context and the context's size, and the prefix bindings. -/
structure Context where
  doc : Document
  node : Nat
  position : Nat
  size : Nat
  ns : Bindings

/-- The functions of the core library. -/
inductive CoreFunction where
  | position
  | last
  | count
  | id
  | localName
  | namespaceUri
  | name
  | string
  | concat
  | startsWith
  | contains
  | substringBefore
  | substringAfter
  | substring
  | stringLength
  | normalizeSpace
  | translate
  | boolean
  | not
  | true
  | false
  | lang
  | number
  | sum
  | floor
  | ceiling
  | round
  deriving Repr, DecidableEq

namespace CoreFunction

/-- The function of a name. -/
def ofName? : String → Option CoreFunction
  | "position" => some .position
  | "last" => some .last
  | "count" => some .count
  | "id" => some .id
  | "local-name" => some .localName
  | "namespace-uri" => some .namespaceUri
  | "name" => some .name
  | "string" => some .string
  | "concat" => some .concat
  | "starts-with" => some .startsWith
  | "contains" => some .contains
  | "substring-before" => some .substringBefore
  | "substring-after" => some .substringAfter
  | "substring" => some .substring
  | "string-length" => some .stringLength
  | "normalize-space" => some .normalizeSpace
  | "translate" => some .translate
  | "boolean" => some .boolean
  | "not" => some .not
  | "true" => some .true
  | "false" => some .false
  | "lang" => some .lang
  | "number" => some .number
  | "sum" => some .sum
  | "floor" => some .floor
  | "ceiling" => some .ceiling
  | "round" => some .round
  | _ => none

/-- The least and the greatest count of arguments; no greatest for `concat`. -/
def arity : CoreFunction → Nat × Option Nat
  | .position | .last | .true | .false => (0, some 0)
  | .count | .id | .boolean | .not | .lang | .sum | .floor | .ceiling | .round => (1, some 1)
  | .localName | .namespaceUri | .name | .string | .stringLength | .normalizeSpace
  | .number => (0, some 1)
  | .concat => (2, none)
  | .startsWith | .contains | .substringBefore | .substringAfter => (2, some 2)
  | .substring => (2, some 3)
  | .translate => (3, some 3)

end CoreFunction

/-- How an arity is written in an error: `exactly 1`, `at least 2`, `2 to 3`. -/
def arityText : Nat × Option Nat → String
  | (lo, some hi) => if lo = hi then "exactly " ++ toString lo else toString lo ++ " to " ++ toString hi
  | (lo, none) => "at least " ++ toString lo

/-- The count of arguments is within the arity, or the error of the call. -/
def checkArity (name : String) (arity : Nat × Option Nat) (count : Nat) :
    Except PathError Unit :=
  if arity.1 ≤ count && arity.2.all (count ≤ ·) then .ok ()
  else .error (.argument name ("expects " ++ arityText arity ++ " arguments, got " ++ toString count))

/-- XPath rounding: to the nearest integer, halves toward positive infinity; zero, NaN and
the infinities stay, and a negative number that rounds to zero gives negative zero. -/
def roundHalfUp (v : Float) : Float :=
  if v.isNaN || v.isInf || v == 0 then v
  else
    let r := (v + 0.5).floor
    if r == 0 && v < 0 then -0.0 else r

/-- The characters at the 1-based positions `p` with `round start ≤ p < round start +
round length`, compared as numbers (so NaN selects nothing). -/
def substringOf (s : String) (start : Float) (length : Option Float) : String :=
  let first := roundHalfUp start
  let stop := (length.map fun l => first + roundHalfUp l).getD (1.0 / 0.0)
  String.ofList ((s.toList.zipIdx 1).filterMap fun (c, i) =>
    let p := Float.ofNat i
    if p >= first && p < stop then some c else none)

/-- Each character of the text replaced by the character at the position of its first
occurrence in `source` within `target`, and dropped when `target` is shorter. -/
def translateText (s source target : List Char) : List Char :=
  s.filterMap fun c =>
    match source.idxOf? c with
    | some i => target[i]?
    | none => some c

/-- The part of a text before the first occurrence of a pattern; empty if none. -/
def textBefore (s pattern : String) : String :=
  match Text.splitAtFirst pattern.toList s.toList with
  | some (before, _) => String.ofList before
  | none => ""

/-- The part of a text after the first occurrence of a pattern; empty if none. -/
def textAfter (s pattern : String) : String :=
  match Text.splitAtFirst pattern.toList s.toList with
  | some (_, after) => String.ofList after
  | none => ""

/-- The `xml:lang` of the nearest node on the way up that has one equals the target or
starts with it and a hyphen, ignoring ASCII case. -/
def langMatches (d : Document) (id : Nat) (target : String) : Bool :=
  match (id :: d.ancestors id).findSome? fun n => d.attribute? n "xml:lang" with
  | some lang =>
    match Text.dropPrefix? (target.toList.map Char.toLower) (lang.toList.map Char.toLower) with
    | some rest => rest.isEmpty || rest.head? == some '-'
    | none => false
  | none => false

/-- The elements whose ID is one of the blank-separated words of a value; a node-set or list
gives the words of each of its strings. -/
def elementsById (d : Document) (v : Value) : List Nat :=
  let texts := (v.atoms d).getD [v.toText d]
  normalize ((texts.flatMap Text.asciiWords).filterMap d.elementById)

/-- The node that the name functions look at: the first of a node-set argument, or the
context node. -/
def nameSubject (c : Context) : List Value → Except PathError (Option Nat)
  | [] => .ok (some c.node)
  | .nodes ids :: _ => .ok ids.head?
  | v :: _ => .error (.notNodeSet v.typeName)

/-- The string of the optional argument, or of the context node. -/
def optionalText (c : Context) : List Value → String
  | v :: _ => v.toText c.doc
  | [] => c.doc.stringValue c.node

def argument (args : List Value) (i : Nat) : Value :=
  args[i]?.getD (.nodes [])

/-- The value of a core function on arguments whose count is within its arity. -/
def CoreFunction.apply (c : Context) (f : CoreFunction) (args : List Value) :
    Except PathError Value :=
  let d := c.doc
  let text := fun (i : Nat) => (argument args i).toText d
  match f with
  | .position => .ok (.number (Float.ofNat c.position))
  | .last => .ok (.number (Float.ofNat c.size))
  | .count =>
    match argument args 0 with
    | .nodes ids => .ok (.number (Float.ofNat ids.length))
    | .strings vs => .ok (.number (Float.ofNat vs.length))
    | v => .error (.notNodeSet v.typeName)
  | .id => .ok (.nodes (elementsById d (argument args 0)))
  | .localName => do
    let n ← nameSubject c args
    pure (.string ((n.bind d.localName?).getD ""))
  | .namespaceUri => do
    let n ← nameSubject c args
    pure (.string ((n.bind d.namespaceUri?).getD ""))
  | .name => do
    let n ← nameSubject c args
    pure (.string ((n.bind d.name?).getD ""))
  | .string => .ok (.string (optionalText c args))
  | .concat => .ok (.string (String.join (args.map (·.toText d))))
  | .startsWith => .ok (.boolean ((text 0).startsWith (text 1)))
  | .contains => .ok (.boolean (Text.occursIn (text 1) (text 0)))
  | .substringBefore => .ok (.string (textBefore (text 0) (text 1)))
  | .substringAfter => .ok (.string (textAfter (text 0) (text 1)))
  | .substring =>
    .ok (.string (substringOf (text 0) ((argument args 1).toNumber d)
      (args[2]?.map (·.toNumber d))))
  | .stringLength => .ok (.number (Float.ofNat (optionalText c args).length))
  | .normalizeSpace => .ok (.string (" ".intercalate (Text.asciiWords (optionalText c args))))
  | .translate =>
    .ok (.string (String.ofList (translateText (text 0).toList (text 1).toList (text 2).toList)))
  | .boolean => .ok (.boolean (argument args 0).toBoolean)
  | .not => .ok (.boolean !(argument args 0).toBoolean)
  | .true => .ok (.boolean Bool.true)
  | .false => .ok (.boolean Bool.false)
  | .lang => .ok (.boolean (langMatches d c.node (text 0)))
  | .number =>
    match args with
    | v :: _ => .ok (.number (v.toNumber d))
    | [] => .ok (.number (parseNumber (d.stringValue c.node)))
  | .sum =>
    match argument args 0 with
    | .nodes ids => .ok (.number ((ids.map fun n => parseNumber (d.stringValue n)).foldl (· + ·) (-0.0)))
    | .strings vs => .ok (.number ((vs.map parseNumber).foldl (· + ·) (-0.0)))
    | v => .error (.notNodeSet v.typeName)
  | .floor => .ok (.number ((argument args 0).toNumber d).floor)
  | .ceiling => .ok (.number ((argument args 0).toNumber d).ceil)
  | .round => .ok (.number (roundHalfUp ((argument args 0).toNumber d)))

/-- A call of a function by name on evaluated arguments. -/
def callFunction (c : Context) (name : String) (args : List Value) : Except PathError Value :=
  match CoreFunction.ofName? name with
  | none => .error (.unknownFunction name)
  | some f => do
    checkArity name f.arity args.length
    f.apply c args

end XmlPointer.Path

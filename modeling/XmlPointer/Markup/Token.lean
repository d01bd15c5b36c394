import XmlPointer.Markup.Fault
import XmlPointer.Markup.Scan
import XmlPointer.Text.Entity

/-! # Markup tokens

The tokenizer splits bytes into markup and character data. It checks lexical shape only:
constructs are terminated and a tag's `>` is found outside quoted values; whether tags nest is
for the document builder. A leading byte-order mark is skipped, so offsets still count it.
`tokenize` gives the tokens up to the end token, or up to the first fault and the fault. -/
namespace XmlPointer.Markup

/-- What a token is. -/
inductive TokenKind where
  | startTag
  | endTag
  | emptyTag
  | text
  | cdata
  | comment
  | instruction
  | declaration
  | doctype
  | eof
  deriving Repr, DecidableEq

/-- A token with its byte span `[start, stop)`. `name` is a tag name or a processing
instruction's target; `content` is decoded character data, the raw attribute region of a tag,
or the raw body of other markup; `contentOffset` is where the content starts. -/
structure Token where
  kind : TokenKind
  start : Nat
  stop : Nat
  name : Option (List UInt8)
  content : Option (List UInt8)
  contentOffset : Nat
  deriving Repr, DecidableEq

/-- A scanned token and the bytes after it, or a fault. -/
abbrev Scanned := Except SyntaxError (Token × List UInt8)

/-- A start tag or empty-element tag at `pos`. The attribute region runs from the end of the
name to the closing `>`, less trailing blanks and a final `/`. -/
def scanStartTag (pos : Nat) (rest : List UInt8) : Scanned :=
  let afterLt := rest.drop 1
  let n := nameLength afterLt
  if n = 0 then .error ⟨.missingElementName, pos⟩
  else
    let attrsStart := pos + 1 + n
    let tail := afterLt.drop n
    match findClose none tail with
    | none => .error ⟨.unterminatedStartTag, pos⟩
    | some k =>
      let inner := ((tail.take k).reverse).dropWhile Text.isXmlBlankByte
      let empty := inner.head? = some 0x2F
      let region := (if empty then inner.drop 1 else inner).reverse
      let token : Token :=
        ⟨if empty then .emptyTag else .startTag, pos, attrsStart + k + 1, some (afterLt.take n),
          some region, attrsStart⟩
      match region with
      | b :: _ =>
        if Text.isXmlBlankByte b then .ok (token, tail.drop (k + 1))
        else .error ⟨.blankExpectedAfterName, attrsStart⟩
      | [] => .ok (token, tail.drop (k + 1))

/-- An end tag at `pos`: a name, blanks and `>`. -/
def scanEndTag (pos : Nat) (rest : List UInt8) : Scanned :=
  let afterSlash := rest.drop 2
  let n := nameLength afterSlash
  if n = 0 then .error ⟨.missingEndTagName, pos⟩
  else
    let tail := afterSlash.drop n
    let w := blankLength tail
    let p := pos + 2 + n + w
    match tail.drop w with
    | 0x3E :: after => .ok (⟨.endTag, pos, p + 1, some (afterSlash.take n), none, pos⟩, after)
    | _ => .error ⟨.malformedEndTag, p⟩

/-- A processing instruction at `pos`, up to the first `?>`; a target named `xml` in any case
makes it the XML declaration. -/
def scanInstruction (pos : Nat) (rest : List UInt8) : Scanned :=
  let body := rest.drop 2
  match findSeq (ascii "?>") body with
  | none => .error ⟨.unterminatedInstruction, pos⟩
  | some k =>
    let n := nameLength body
    if n = 0 then .error ⟨.missingInstructionTarget, pos⟩
    else
      let skip := min (n + blankLength (body.drop n)) k
      let target := body.take n
      let kind := if equalsIgnoringCase target (ascii "xml") then .declaration else .instruction
      .ok (⟨kind, pos, pos + 2 + k + 2, some target, some ((body.drop skip).take (k - skip)),
        pos + 2 + skip⟩, body.drop (k + 2))

/-- Markup with a fixed opening of `opening` bytes, up to the first `close`. -/
def scanDelimited (opening : Nat) (close : String) (kind : TokenKind) (fault : Fault)
    (pos : Nat) (rest : List UInt8) : Scanned :=
  let body := rest.drop opening
  match findSeq (ascii close) body with
  | none => .error ⟨fault, pos⟩
  | some k =>
    .ok (⟨kind, pos, pos + opening + k + close.length, none, some (body.take k), pos + opening⟩,
      body.drop (k + close.length))

/-- The `>` that ends a document type declaration at `start`, with the bytes after it. Quoted
literals, bracketed subsets and comments may hold a `>`; `p` is the offset of the bytes. -/
def doctypeClose (start depth : Nat) (quote : Option UInt8) (p : Nat) :
    List UInt8 → Except SyntaxError (Nat × List UInt8)
  | [] => .error ⟨.unterminatedDoctype, start⟩
  | b :: bs =>
    match quote with
    | some q =>
      if b = q then doctypeClose start depth none (p + 1) bs
      else doctypeClose start depth quote (p + 1) bs
    | none =>
      if isQuote b then doctypeClose start depth (some b) (p + 1) bs
      else if b = 0x5B then doctypeClose start (depth + 1) none (p + 1) bs
      else if b = 0x5D then doctypeClose start (depth - 1) none (p + 1) bs
      else if b = 0x3C && (ascii "!--").isPrefixOf bs then
        match findSeq (ascii "-->") (bs.drop 3) with
        | none => .error ⟨.unterminatedCommentInDoctype, p⟩
        | some k => doctypeClose start depth none (p + 4 + k + 3) (bs.drop (k + 6))
      else if b = 0x3E && depth = 0 then .ok (p, bs)
      else doctypeClose start depth none (p + 1) bs
termination_by bs => bs.length
decreasing_by all_goals simp only [List.length_cons, List.length_drop]; omega

/-- A document type declaration at `pos`; its content is everything after `<!DOCTYPE`. -/
def scanDoctype (pos : Nat) (rest : List UInt8) : Scanned :=
  let body := rest.drop 9
  match doctypeClose pos 0 none (pos + 9) body with
  | .error e => .error e
  | .ok (close, after) =>
    .ok (⟨.doctype, pos, close + 1, none, some (body.take (close - (pos + 9))), pos + 9⟩, after)

/-- Character data at `pos`, up to the next `<`, with references decoded. -/
def scanText (pos : Nat) (rest : List UInt8) : Scanned :=
  let k := (rest.takeWhile (· != 0x3C)).length
  .ok (⟨.text, pos, pos + k, none, some (Text.decodeBytes (rest.take k)), pos⟩, rest.drop k)

/-- The token at offset `pos`, `rest` being the bytes from there on. -/
def Token.scan (pos : Nat) (rest : List UInt8) : Scanned :=
  match rest with
  | [] => .ok (⟨.eof, pos, pos, none, none, pos⟩, [])
  | 0x3C :: r =>
    match r with
    | 0x2F :: _ => scanEndTag pos rest
    | 0x3F :: _ => scanInstruction pos rest
    | 0x21 :: _ =>
      if (ascii "<!--").isPrefixOf rest then
        scanDelimited 4 "-->" .comment .unterminatedComment pos rest
      else if (ascii "<![CDATA[").isPrefixOf rest then
        scanDelimited 9 "]]>" .cdata .unterminatedCData pos rest
      else if (ascii "<!DOCTYPE").isPrefixOf rest then scanDoctype pos rest
      else .error ⟨.unsupportedDeclaration, pos⟩
    | _ => scanStartTag pos rest
  | _ => scanText pos rest

def startOf (input : List UInt8) : Nat × List UInt8 :=
  if [0xEF, 0xBB, 0xBF].isPrefixOf input then (3, input.drop 3) else (0, input)

/-- Tokens from `pos` on, at most `fuel` of them: up to and including the end token, or up to
a fault, which is returned beside them. -/
def tokensFrom : Nat → Nat → List UInt8 → List Token × Option SyntaxError
  | 0, _, _ => ([], none)
  | fuel + 1, pos, rest =>
    match Token.scan pos rest with
    | .error e => ([], some e)
    | .ok (t, after) =>
      if t.kind = .eof then ([t], none)
      else
        let more := tokensFrom fuel t.stop after
        (t :: more.1, more.2)

/-- All tokens of an input: every token but the last uses at least one byte, so one more
token than there are bytes is enough. -/
def tokenize (input : List UInt8) : List Token × Option SyntaxError :=
  let s := startOf input
  tokensFrom (s.2.length + 1) s.1 s.2

end XmlPointer.Markup

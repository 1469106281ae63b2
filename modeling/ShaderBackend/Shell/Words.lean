import ShaderBackend.Shell.Reader

/-!
Reading words and tokens. Quotes, dollar signs and backquotes are understood here; the commands
inside a word are read by the reader of lists that is passed in.
-/

namespace ShaderBackend.Shell

inductive Closing where
  | paren
  | endOfText
  deriving DecidableEq

/-- Where in a word a character stands. -/
inductive Mode where
  | plain
  | double
  /-- In a document whose delimiter is not quoted. -/
  | document
  /-- In the braces after a dollar sign. -/
  | braced (quoted : Bool)
  | arithmetic (depth : Nat)
  deriving DecidableEq

namespace Mode

def quotes : Mode → Bool
  | plain => false
  | braced quoted => quoted
  | _ => true

def escapes (mode : Mode) (c : Char) : Bool :=
  match mode with
  | plain | braced false => true
  | double | arithmetic _ => c == '$' || c == '\x60' || c == '"' || c == '\\'
  | document => c == '$' || c == '\x60' || c == '\\'
  | braced true => c == '$' || c == '\x60' || c == '"' || c == '\\' || c == '\x7d'

end Mode

def endsWord (c : Char) : Bool :=
  c == ' ' || c == '\t' || c == '\n' || c == ';' || c == '&' || c == '|' || c == '<' || c == '>' ||
    c == '(' || c == ')'

def addChar (c : Char) (quoted : Bool) : List Part → List Part
  | .text t q :: rest =>
    if q == quoted then .text (t ++ [c]) q :: rest else .text [c] quoted :: .text t q :: rest
  | parts => .text [c] quoted :: parts

/-- Parts in double quotes. They make a field even if they are empty, unless they are nothing but
the arguments. -/
def quotedParts : List Part → List Part
  | [.parameter .each .value quoted] => [.parameter .each .value quoted]
  | parts => .text [] true :: parts

def specialParameter? : Char → Option Parameter
  | '@' => some .each
  | '*' => some .all
  | '#' => some .count
  | '?' => some .status
  | '-' => some .options
  | '$' => some .processId
  | '!' => some .lastProcess
  | c => if c.isDigit then some (.positional (c.toNat - '0'.toNat)) else none

/-- A name, up to its end. -/
def readName : Read Text := do
  Read.takeJoined isNameRest (← Read.rest).length

def readNamed : Read Parameter := do
  match ← Read.peek with
  | some c =>
    if isNameStart c then return .named (← readName)
    else
      let digits ← Read.takeJoined Char.isDigit (← Read.rest).length
      return .positional ((Text.readNumber? 10 digits).getD 0)
  | none => return .positional 0

def fallback? : Char → Option Fallback
  | '-' => some .substitute
  | '=' => some .assign
  | '?' => some .complain
  | '+' => some .invert
  | _ => none

/-- What stands in braces, up to the word in them. -/
inductive BracedStart where
  /-- The brace is closed after the parameter. -/
  | value (p : Parameter)
  /-- The brace is closed after the parameter, whose length is asked for. -/
  | length (p : Parameter)
  | fallback (p : Parameter) (f : Fallback) (orEmpty : Bool)
  | trim (p : Parameter) (atEnd longest : Bool)
  /-- A colon and a brace follow the parameter, and a word that is added to it. -/
  | followed (p : Parameter)
  | invalid

/-- What follows a parameter in braces. A character that means nothing there is lost. -/
def readOperator (p : Parameter) : Read BracedStart := do
  let trim (c : Char) (atEnd : Bool) : Read BracedStart := do
    if (← Read.peek) == some c then
      let _ ← Read.next
      return .trim p atEnd true
    else return .trim p atEnd false
  match ← Read.next with
  | some '\x7d' => return .value p
  | some '%' => trim '%' true
  | some '#' => trim '#' false
  | some ':' =>
    match ← Read.next with
    | some '\x7d' => return .followed p
    | some c => return ((fallback? c).map fun f => .fallback p f true).getD .invalid
    | none => return .invalid
  | some c => return ((fallback? c).map fun f => .fallback p f false).getD .invalid
  | none => return .invalid

/-- What follows a number sign in braces: the parameter whose length is asked for, or what is done
with the number of arguments. -/
def readLength : Read BracedStart := do
  let closed (p : Parameter) : Read BracedStart := do
    if (← Read.peek) == some '\x7d' then
      let _ ← Read.next
      return .length p
    else return .invalid
  match ← Read.peek with
  | none => return .invalid
  | some c =>
    if isNameRest c then closed (← readNamed)
    else
      let before ← get
      let _ ← Read.next
      if c != '\x7d' && (← Read.peek) == some '\x7d' then
        match specialParameter? c with
        | some p => closed p
        | none => return .invalid
      else
        set before
        readOperator .count

def readBracedStart : Read BracedStart := do
  match ← Read.peek with
  | none | some '\x7d' => return .invalid
  | some c =>
    if isNameRest c then readOperator (← readNamed)
    else
      let _ ← Read.next
      if c == '#' then readLength
      else
        match specialParameter? c with
        | some p => readOperator p
        | none => return .invalid

/-- The text between backquotes, and how much of the script it takes. -/
def backquoted (inDouble : Bool) : Text → Option (Text × Nat)
  | [] => none
  | '\x60' :: _ => some ([], 1)
  | '\\' :: c :: rest =>
    (backquoted inDouble rest).map fun (t, n) =>
      if c == '$' || c == '\x60' || c == '\\' || (inDouble && c == '"') then (c :: t, n + 2)
      else ('\\' :: c :: t, n + 2)
  | c :: rest => (backquoted inDouble rest).map fun (t, n) => (c :: t, n + 1)

/-- Read something in a script of its own, which knows nothing of documents around it. -/
def readApart {α : Type} (action : Read α) : Read α := do
  let before ← get
  set { before with pending := [], document := .outside, atDelimiter := false }
  let result ← action
  modify fun r => { r with
    pending := before.pending, document := before.document, atDelimiter := before.atDelimiter }
  return result

def readBackquoted (inner : Closing → Read Command) (inDouble : Bool) : Read Command := do
  Read.skip 1
  match backquoted inDouble (← Read.rest) with
  | none =>
    Read.skip (← Read.rest).length
    Read.fail "EOF in backquote substitution"
  | some (script, length) =>
    let outside ← get
    set { outside with rest := script, active := outside.activeInside }
    let body ← readApart (inner .endOfText)
    modify fun r => { r with
      rest := outside.rest, line := outside.line, pushed := none, active := outside.active }
    Read.skip length
    return body

def cutShort (parts : List Part) : Mode → Read (List Part)
  | .plain | .document => return parts.reverse
  | .double | .braced true => do
    if (← get).document = .outside then Read.fail "Unterminated quoted string"
    else Read.fail "Missing '\x7d'"
  | .braced false => Read.fail "Missing '\x7d'"
  | .arithmetic _ => Read.fail "Missing '))'"

def checkEnd : Read Unit := do
  match (← get).document with
  | .lines delimiter dropTabs =>
    if dropTabs then
      let _ ← Read.takeWhile (· == '\t')
    let finish (after : Text) : Read Unit :=
      modify fun r => { r with rest := [], line := r.line + 1, document := .ended after }
    match delimiter.isPrefixOf? (← Read.rest) with
    | some [] => finish []
    | some ('\n' :: after) => finish after
    | _ => return
  | _ => return

/-- Read the parts of a word from where it starts or a quote opens, up to where it ends. The parts
read so far come in reverse. -/
def readParts (inner : Closing → Read Command) : Nat → Mode → List Part → Read (List Part)
  | 0, _, _ => Read.fail "Unterminated quoted string"
  | fuel + 1, mode, parts => do
    let quoted := mode.quotes
    let braced : Read (List Part) := do
      match ← readBracedStart with
      | .value p => return [.parameter p .value quoted]
      | .length p => return [.parameter p .length quoted]
      | .fallback p f orEmpty =>
        let word ← readParts inner fuel (.braced quoted) []
        return [.parameter p (.fallback f orEmpty word) quoted]
      | .trim p atEnd longest =>
        let pattern ← readParts inner fuel (.braced false) []
        return [.parameter p (.trim atEnd longest pattern) quoted]
      | .followed p =>
        let word ← readParts inner fuel (.braced quoted) []
        return .parameter p .value quoted :: word
      | .invalid =>
        let _ ← readParts inner fuel (.braced quoted) []
        return [.parameter .status .invalid quoted]
    let afterDollar : Read (List Part) := do
      match ← Read.peek with
      | some '(' =>
        let _ ← Read.next
        if (← Read.peek) == some '(' then
          let _ ← Read.next
          let expression ← readParts inner fuel (.arithmetic 0) []
          return [.arithmetic expression quoted]
        else return [.output (← readApart (inner .paren)) quoted]
      | some '\x7b' =>
        let _ ← Read.next
        braced
      | some c =>
        if isNameStart c then return [.parameter (.named (← readName)) .value quoted]
        else
          match specialParameter? c with
          | some p =>
            let _ ← Read.next
            return [.parameter p .value quoted]
          | none => return []
      | none => return []
    let literally (c : Char) : Read (List Part) := do
      Read.skip 1
      if c == '\n' then checkEnd
      readParts inner fuel mode (addChar c quoted parts)
    let quoteOr (c : Char) : Read (List Part) := do
      if c == '\'' then
        Read.skip 1
        let inside ← Read.takeWhile (· != '\'')
        if (← Read.rest).isEmpty then Read.fail "Unterminated quoted string"
        Read.skip 1
        readParts inner fuel mode (.text inside true :: parts)
      else if c == '"' then
        Read.skip 1
        let inside ← readParts inner fuel .double []
        readParts inner fuel mode ((quotedParts inside).reverse ++ parts)
      else literally c
    match ← Read.rest with
    | [] => cutShort parts mode
    | '\\' :: '\n' :: _ =>
      Read.skip 2
      readParts inner fuel mode parts
    | '\\' :: c :: _ =>
      Read.skip 2
      if mode.escapes c then readParts inner fuel mode (addChar c true parts)
      else readParts inner fuel mode (addChar c true (addChar '\\' true parts))
    | '$' :: _ =>
      if (← get).atDelimiter then literally '$'
      else
        Read.skip 1
        match ← afterDollar with
        | [] => readParts inner fuel mode (addChar '$' quoted parts)
        | more => readParts inner fuel mode (more.reverse ++ parts)
    | '\x60' :: _ =>
      if (← get).atDelimiter then literally '\x60'
      else
        let body ← readBackquoted inner (mode == .double)
        readParts inner fuel mode (.output body quoted :: parts)
    | c :: rest =>
      match mode with
      | .plain => if endsWord c then return parts.reverse else quoteOr c
      | .double =>
        if c == '"' then
          Read.skip 1
          return parts.reverse
        else literally c
      | .document => literally c
      | .braced quoted =>
        if c == '\x7d' then
          Read.skip 1
          return parts.reverse
        else if quoted && c == '\'' then literally c
        else quoteOr c
      | .arithmetic depth =>
        if c == '(' then
          Read.skip 1
          readParts inner fuel (.arithmetic (depth + 1)) (addChar c true parts)
        else if c == ')' && depth != 0 then
          Read.skip 1
          readParts inner fuel (.arithmetic (depth - 1)) (addChar c true parts)
        else if c == ')' && rest.head? == some ')' then
          Read.skip 2
          return parts.reverse
        else literally c

/-- Without the tabs in front. -/
def dropTabs (line : Text) : Text :=
  line.dropWhile (· == '\t')

/-- The lines of a document up to the one that is its delimiter, and the length of all of them. -/
def documentLines (d : PendingDocument) : Nat → Text → Text × Nat
  | 0, _ => ([], 0)
  | _, [] => ([], 0)
  | fuel + 1, script =>
    let raw := script.takeWhile (· != '\n')
    let line := if d.dropTabs then dropTabs raw else raw
    let length := min (raw.length + 1) script.length
    if line = d.delimiter then ([], length)
    else
      let (body, more) := documentLines d fuel (script.drop length)
      let lineEnd : Text := if raw.length < script.length then ['\n'] else []
      (line ++ lineEnd ++ body, length + more)

def readDocument (inner : Closing → Read Command) (d : PendingDocument) : Read Unit := do
  let script ← Read.rest
  let parts ← if d.quoted then do
      let (body, length) := documentLines d (script.length + 1) script
      Read.skip length
      pure [.text body true]
    else do
      modify fun r => { r with document := .lines d.delimiter d.dropTabs }
      Read.joinLines
      checkEnd
      let parts ← readParts inner (2 * script.length + 2) .document []
      modify fun r => { r with
        rest := match r.document with
          | .ended after => after
          | _ => r.rest
        document := .outside }
      pure parts
  modify fun r => { r with documents := (d.key, parts) :: r.documents }

def readDocuments (inner : Closing → Read Command) : Read Unit := do
  let pending := (← get).pending
  modify fun r => { r with pending := [] }
  pending.forM (readDocument inner)

/-- Go to where a token starts. -/
def skipBlanks : Nat → Read Unit
  | 0 => return
  | fuel + 1 => do
    match ← Read.rest with
    | ' ' :: _ | '\t' :: _ => Read.skip 1; skipBlanks fuel
    | '\\' :: '\n' :: _ => Read.skip 2; skipBlanks fuel
    | '#' :: _ =>
      let _ ← Read.takeWhile (· != '\n')
    | _ => return

/-- Go past the next character if it is one that makes a longer operator. -/
def readMore (longer : List (Char × Token)) (shorter : Token) : Read Token := do
  match (← Read.peek).bind fun c => longer.lookup c with
  | some t =>
    let _ ← Read.next
    return t
  | none => return shorter

/-- A redirection operator, for a descriptor if one is written. -/
def readRedirect (descriptor : Option Nat) : Read Token := do
  let input (kind : RedirectKind) : Token := .redirect (descriptor.getD 0) kind
  let output (kind : RedirectKind) : Token := .redirect (descriptor.getD 1) kind
  let document (dropTabs : Bool) : Token := .document (descriptor.getD 0) dropTabs
  if (← Read.next) == some '<' then
    match ← readMore [('<', document false), ('&', input .share), ('>', input .readWrite)]
      (input .read) with
    | .document .. => readMore [('-', document true)] (document false)
    | t => return t
  else
    readMore [('>', output .append), ('|', output .overwrite), ('&', output .share)] (output .write)

/-- The text of a word in which nothing is quoted or replaced. -/
def literal? : Word → Option Text
  | [.text t false] => some t
  | _ => none

/-- The operator of a character, and of the character twice. -/
def operator? : Char → Option (Token × Option Token)
  | '&' => some (.ampersand, some .andIf)
  | '|' => some (.bar, some .orIf)
  | ';' => some (.semicolon, some .endArm)
  | '(' => some (.openParen, none)
  | ')' => some (.closeParen, none)
  | _ => none

def startsRedirect (c : Char) : Bool :=
  c == '<' || c == '>'

def descriptor? (w : Word) (rest : Text) : Option Nat :=
  match literal? w with
  | some [c] =>
    if c.isDigit && rest.head?.any startsRedirect then some (c.toNat - '0'.toNat) else none
  | _ => none

def readNew (inner : Closing → Read Command) : Read Token := do
  skipBlanks (← Read.rest).length
  match ← Read.rest with
  | [] => return .endOfFile
  | '\n' :: _ =>
    Read.skip 1
    return .newline
  | c :: rest =>
    match operator? c with
    | some (once, twice) =>
      let _ ← Read.next
      readMore (twice.toList.map (c, ·)) once
    | none =>
      if startsRedirect c then readRedirect none
      else
        let w ← readParts inner (2 * rest.length + 4) .plain []
        match descriptor? w (← Read.rest) with
        | some n => readRedirect (some n)
        | none =>
          modify fun r => { r with lastWord := w }
          return .word w (literal? w)

/-- The next token that is no line feed. Documents begin after the first that is left out. -/
def skipNewlines (inner : Closing → Read Command) : Nat → Token → Read Token
  | fuel + 1, .newline => do
    readDocuments inner
    skipNewlines inner fuel (← readNew inner)
  | _, t => return t

/-- The next token; line feeds may be left out, and words that are keywords or aliases recognized.
What an alias stands for is read in its place. -/
def readToken (inner : Closing → Read Command) (passNewlines knowKeywords knowAliases : Bool) :
    Nat → Read Token
  | 0 => Read.fail "too deep"
  | fuel + 1 => do
    let before ← get
    let t ← match before.pushed with
      | some t => do
        set { before with pushed := none }
        pure t
      | none => readNew inner
    let t ← if passNewlines then skipNewlines inner (before.rest.length + 1) t else pure t
    match t with
    | .word _ (some text) =>
      let r ← get
      if knowKeywords && Token.keywords.contains text then return .keyword text
      else
        match if knowAliases || before.goesOnTo r then r.aliasOf? text else none with
        | some value =>
          set (r.reading text value)
          readToken inner passNewlines knowKeywords knowAliases fuel
        | none => return t
    | _ => return t

end ShaderBackend.Shell

import ShaderBackend.Shell.Words

/-!
Reading commands. A script is read one line of commands at a time, so that a line runs before the
next one is looked at. Lists inside commands are read by the reader that is passed in.
-/

namespace ShaderBackend.Shell

/-- Where a list of commands stands. -/
inductive ListPlace where
  /-- The list ends with its line. -/
  | line
  /-- The list has at least one command. -/
  | block
  /-- The list may be empty. -/
  | arm
  deriving DecidableEq

section

variable (block : ListPlace → Read Command)

def readInner : Closing → Read Command
  | .endOfText => block .arm
  | .paren => do
    let body ← block .arm
    match ← readToken (fun _ => block .arm) false false false 1 with
    | .closeParen => return body
    | t => Read.unexpectedFor t .closeParen

/-- The next token. Where words can be keywords they can mostly be aliases too. -/
def token (passNewlines knowKeywords : Bool) (knowAliases : Bool := knowKeywords) : Read Token := do
  let r ← get
  readToken (readInner block) passNewlines knowKeywords knowAliases
    (r.rest.length + r.aliases.length + 2)

def expect (expected : Token) (isExpected : Token → Bool) (passNewlines knowKeywords : Bool) :
    Read Unit := do
  let t ← token block passNewlines knowKeywords
  if isExpected t then return else Read.unexpectedFor t expected

def expectKeyword (k : Text) : Read Unit :=
  expect block (.keyword k) (Token.isKeyword k) false true

/-- The text of a word without its quotes. -/
def unquoted (w : Word) : Text :=
  w.flatMap fun
    | .text t _ => t
    | _ => []

def isQuotedPart : Part → Bool
  | .text _ quoted => quoted
  | _ => false

def readTarget (descriptor : Nat) (kind : RedirectKind) : Read Redirect := do
  match ← token block false false with
  | .word w _ => return .mk descriptor kind w
  | t => Read.unexpected t

def readDelimiter (descriptor : Nat) (dropTabs : Bool) : Read Redirect := do
  modify fun r => { r with atDelimiter := true }
  let t ← token block false false
  modify fun r => { r with atDelimiter := false }
  match t with
  | .word w _ =>
    let key := (← get).nextKey
    let d : PendingDocument :=
      { key, delimiter := unquoted w, quoted := w.any isQuotedPart, dropTabs }
    modify fun r => { r with nextKey := key + 1, pending := r.pending ++ [d] }
    return .mk descriptor (.document key) []
  | t => Read.unexpected t

def readRedirects : Nat → Read (List Redirect)
  | 0 => return []
  | fuel + 1 => do
    match ← token block false true with
    | .redirect descriptor kind =>
      let r ← readTarget block descriptor kind
      return r :: (← readRedirects fuel)
    | .document descriptor dropTabs =>
      let r ← readDelimiter block descriptor dropTabs
      return r :: (← readRedirects fuel)
    | t =>
      Read.putBack t
      return []

def assignment? : Word → Option Assignment
  | .text t false :: rest =>
    match Text.cut? '=' t with
    | some (name, value) =>
      if isName name then
        some (.mk name (if value.isEmpty then rest else .text value false :: rest))
      else none
    | none => none
  | _ => none

/-- The commands whose names no function can have. -/
def specialCommands : List Text :=
  [".", ":", "break", "continue", "eval", "exec", "exit", "export", "readonly", "return", "set",
    "shift", "times", "trap", "unset"]

structure SimpleParts where
  assignments : List Assignment := []
  words : List Word := []
  redirects : List Redirect := []

/-- A simple command, or the definition of a function. -/
def readSimple (command : Read Command) (line : Nat) : Nat → SimpleParts → Read Command
  | 0, _ => return .nothing
  | fuel + 1, s => do
    match ← token block false false s.words.isEmpty with
    | .word w literal =>
      match (if s.words.isEmpty then assignment? w else none) with
      | some a => readSimple command line fuel { s with assignments := s.assignments ++ [a] }
      | none =>
        let isFirst := s.words.isEmpty && s.assignments.isEmpty && s.redirects.isEmpty
        let next ← token block false false
        match isFirst, next with
        | true, .openParen =>
          expect block .closeParen (fun | .closeParen => true | _ => false) false false
          match literal with
          | some name =>
            if isName name && ! specialCommands.contains name then
              let t ← token block true true
              Read.putBack t
              return .definition name (← command)
            else Read.fail "Bad function name"
          | none => Read.fail "Bad function name"
        | _, next =>
          Read.putBack next
          readSimple command line fuel { s with words := s.words ++ [w] }
    | .redirect descriptor kind =>
      let r ← readTarget block descriptor kind
      readSimple command line fuel { s with redirects := s.redirects ++ [r] }
    | .document descriptor dropTabs =>
      let r ← readDelimiter block descriptor dropTabs
      readSimple command line fuel { s with redirects := s.redirects ++ [r] }
    | t =>
      Read.putBack t
      return .simple line s.assignments s.words s.redirects

def readBranches : Nat → Read Command
  | 0 => return .nothing
  | fuel + 1 => do
    let t ← token block false true
    if t.isKeyword "elif" then
      let condition ← block .block
      expectKeyword block "then"
      let yes ← block .block
      return .branch condition yes (← readBranches fuel)
    else if t.isKeyword "else" then block .block
    else
      Read.putBack t
      return .nothing

/-- The words that a loop goes through, up to the end of the line or a semicolon. -/
def readLoopWords : Nat → Read (List Word)
  | 0 => return []
  | fuel + 1 => do
    match ← token block false false with
    | .word w _ => return w :: (← readLoopWords fuel)
    | .newline | .semicolon => return []
    | t => Read.unexpected t

/-- The patterns of an arm from where the token of the first has been read. Whatever token there is,
the pattern is the last word. -/
def readPatterns : Nat → Read (List Word)
  | 0 => return []
  | fuel + 1 => do
    let pattern := (← get).lastWord
    match ← token block false false with
    | .bar =>
      let _ ← token block false false
      return pattern :: (← readPatterns fuel)
    | .closeParen => return [pattern]
    | t => Read.unexpectedFor t .closeParen

def readArms : Nat → Read (List Arm)
  | 0 => return []
  | fuel + 1 => do
    let t ← token block true true false
    if t.isKeyword "esac" then return []
    else
      match t with
      | .openParen =>
        let _ ← token block false false
      | _ => pure ()
      let patterns ← readPatterns block fuel
      let body ← block .arm
      let t ← token block true true false
      if t.isKeyword "esac" then return [.mk patterns body]
      else
        match t with
        | .endArm => return .mk patterns body :: (← readArms fuel)
        | t => Read.unexpectedFor t .endArm

/-- A command that a keyword or a parenthesis starts, without the redirections after it. -/
def readCompound (line fuel : Nat) (t : Token) : Read Command := do
  match t with
  | .openParen =>
    let body ← block .block
    expect block .closeParen (fun | .closeParen => true | _ => false) false false
    return .subshell line body []
  | .keyword k =>
    if k = "if" then
      let condition ← block .block
      expectKeyword block "then"
      let yes ← block .block
      let no ← readBranches block fuel
      expectKeyword block "fi"
      return .branch condition yes no
    else if k = "while" ∨ k = "until" then
      let condition ← block .block
      expectKeyword block "do"
      let body ← block .block
      expectKeyword block "done"
      return .loop (k == "until") condition body
    else if k = "for" then
      let name ← match ← token block false false with
        | .word _ (some name) =>
          if isName name then pure name else Read.fail "Bad for loop variable"
        | _ => Read.fail "Bad for loop variable"
      let t ← token block true true
      let words ← if t.isKeyword "in" then readLoopWords block fuel else do
        match t with
        | .semicolon => pure ()
        | t => Read.putBack t
        pure [[.parameter .each .value true]]
      expect block (.keyword "do") (Token.isKeyword "do") true true
      let body ← block .block
      expectKeyword block "done"
      return .each line name words body
    else if k = "case" then
      let subject ← match ← token block false false with
        | .word w _ => pure w
        | t => Read.unexpectedFor t (.word [] none)
      expect block (.keyword "in") (Token.isKeyword "in") true true
      let arms ← readArms block fuel
      return .choice line subject arms
    else if k = "\x7b" then
      let body ← block .block
      expectKeyword block "\x7d"
      return body
    else Read.unexpected t
  | t => Read.unexpected t

def readCommand : Nat → Read Command
  | 0 => return .nothing
  | fuel + 1 => do
    let t ← token block false false
    let line ← Read.line
    match t with
    | .word .. | .redirect .. | .document .. =>
      Read.putBack t
      readSimple block (readCommand fuel) line fuel {}
    | t =>
      let body ← readCompound block line fuel t
      match ← readRedirects block fuel with
      | [] => return body
      | redirects =>
        match body with
        | .subshell line body _ => return .subshell line body redirects
        | body => return .redirected line body redirects

def readPipes (fuel : Nat) : Nat → Read (List Command)
  | 0 => return []
  | n + 1 => do
    match ← token block false false with
    | .bar =>
      let t ← token block true true
      Read.putBack t
      let c ← readCommand block fuel
      return c :: (← readPipes fuel n)
    | t =>
      Read.putBack t
      return []

def readPipeline (fuel : Nat) : Read Command := do
  let t ← token block false false
  let isNegated := t.isKeyword "!"
  if isNegated then
    let t ← token block false true
    Read.putBack t
  else Read.putBack t
  let first ← readCommand block fuel
  let rest ← readPipes block fuel fuel
  let whole := if rest.isEmpty then first else .pipeline (first :: rest)
  return if isNegated then .negation whole else whole

def readConditions (fuel : Nat) : Nat → Command → Read Command
  | 0, first => return first
  | n + 1, first => do
    match ← token block false false with
    | .andIf =>
      let t ← token block true true
      Read.putBack t
      readConditions fuel n (.both first (← readPipeline block fuel))
    | .orIf =>
      let t ← token block true true
      Read.putBack t
      readConditions fuel n (.either first (← readPipeline block fuel))
    | t =>
      Read.putBack t
      return first

def joined (first : Option Command) (second : Command) : Command :=
  match first with
  | some first => .sequence first second
  | none => second

def readRest (place : ListPlace) (fuel : Nat) : Nat → Option Command → Read Command
  | 0, before => return before.getD .nothing
  | n + 1, before => do
    let t ← token block (place != .line) true
    match t with
    | .newline =>
      readDocuments (readInner block)
      return before.getD .nothing
    | .endOfFile =>
      Read.putBack t
      return before.getD .nothing
    | t =>
      Read.putBack t
      if place != .line && (before.isSome || place == .arm) && t.endsList then
        return before.getD .nothing
      else
        let first ← readPipeline block fuel
        let c ← readConditions block fuel fuel first
        match ← token block false false with
        | .endOfFile =>
          Read.putBack .endOfFile
          return joined before c
        | .newline =>
          Read.putBack .newline
          readRest place fuel n (some (joined before c))
        | .ampersand => readRest place fuel n (some (joined before (.background c)))
        | .semicolon => readRest place fuel n (some (joined before c))
        | t =>
          if place == .line then Read.unexpected t
          else
            Read.putBack t
            return joined before c

end

/-- Read a list of commands, in which lists are nested at most as deep as the fuel. -/
def readList : Nat → ListPlace → Read Command
  | 0, _ => Read.fail "too deep"
  | fuel + 1, place => do
    let size := (← get).bound
    readRest (readList fuel) place size size none

/-- What comes next in a script: the commands of a line, and what is left after them. -/
structure ScriptLine where
  body : Command
  reader : Reader
  /-- Whether the script is known to end here. -/
  isLast : Bool

def Reader.next (r : Reader) : Except ReadError ScriptLine := do
  let (body, r) ← (readList r.bound .line).run r
  match r.pushed with
  | some .endOfFile => return ⟨body, { r with pushed := none }, true⟩
  | _ => return ⟨body, { r with pushed := none }, false⟩

def Reader.whole (r : Reader) : Except ReadError (Word × Reader) :=
  (readParts (readInner (readList r.bound)) (2 * r.rest.length + 2) .document []).run
    { r with document := .text }

end ShaderBackend.Shell

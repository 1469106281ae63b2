import ShaderBackend.Shell.Builtin.Variables

/-!
The commands that change how the shell works: its options and arguments, and what it allows.
-/

namespace ShaderBackend.Shell.Builtin

variable {m : Type → Type} [Monad m] [FileSystem m]

def setArguments (args : List Text) : Run m Unit :=
  modify fun s => { s with args, optionPlace := {} }

/-- Do what comes with a change of the options. Jobs cannot be controlled without a terminal. -/
def noteOptions : Run m Unit := do
  if (← get).has .jobControl then
    Run.complain "can't access tty; job control turned off"
    modify fun s => { s with options := s.options.turn .jobControl false }

def setLetter (on : Bool) (c : Char) : Run m Unit := do
  match Flag.ofLetter? c with
  | some f =>
    let gone := if on then Options.excluded f else []
    modify fun s => { s with
      options := gone.foldl (fun o g => o.turn g false) (s.options.turn f on) }
  | none => Run.fail ("Illegal option -" ++ [c])

/-- Turn options on or off by their letters, and give the arguments that are left. Names of options
are taken from the arguments; without one the options are shown. -/
def setLetters (on : Bool) : Text → List Text → Run m (List Text)
  | [], rest => return rest
  | 'o' :: more, [] => do
    let options := (← get).options
    let _ ← put "set" (if on then options.table else options.commands)
    setLetters on more []
  | 'o' :: more, name :: rest => do
    match Flag.ofName? name with
    | some f =>
      modify fun s => { s with options := s.options.turn f on }
      setLetters on more rest
    | none => Run.fail ("Illegal option -o " ++ name)
  | c :: more, rest => do
    setLetter on c
    setLetters on more rest

def setAll : Nat → List Text → Run m Unit
  | 0, _ => return
  | _, [] => return
  | fuel + 1, arg :: rest => do
    match arg with
    | ['-'] =>
      modify fun s => { s with options := (s.options.turn .trace false).turn .verbose false }
      if ! rest.isEmpty then setArguments rest
    | ['-', '-'] => setArguments rest
    | '-' :: letters => setAll fuel (← setLetters true letters rest)
    | '+' :: letters => setAll fuel (← setLetters false letters rest)
    | _ => setArguments (arg :: rest)

/-- Set options and arguments, or show the variables. -/
def setShell (args : List Text) : Run m Nat := do
  if args.isEmpty then put "set" (← shownVariables [] (·.value.isSome))
  else
    setAll (args.length + 1) args
    noteOptions
    return 0

def shift (args : List Text) : Run m Nat := do
  let count ← match args with
    | [] => pure 1
    | n :: _ => Run.count n
  let old := (← get).args
  if old.length < count then Run.fail "can't shift that many"
  setArguments (old.drop count)
  return 0

/-- What the owner, the group and others may do. -/
structure Permissions where
  owner : Nat
  group : Nat
  others : Nat
  deriving DecidableEq, Repr

namespace Permissions

def ofMask (mask : Nat) : Permissions :=
  { owner := 7 - mask / 64 % 8, group := 7 - mask / 8 % 8, others := 7 - mask % 8 }

def mask (p : Permissions) : Nat :=
  (7 - p.owner) * 64 + (7 - p.group) * 8 + (7 - p.others)

def letters (n : Nat) : Text :=
  (if n / 4 % 2 = 1 then ['r'] else []) ++ (if n / 2 % 2 = 1 then ['w'] else []) ++
    (if n % 2 = 1 then ['x'] else [])

def text (p : Permissions) : Text :=
  "u=" ++ letters p.owner ++ ",g=" ++ letters p.group ++ ",o=" ++ letters p.others

def update (p : Permissions) (who : Text) (change : Nat → Nat) : Permissions :=
  let isMeant (c : Char) : Bool := who.contains c || who.contains 'a'
  { owner := if isMeant 'u' then change p.owner else p.owner
    group := if isMeant 'g' then change p.group else p.group
    others := if isMeant 'o' then change p.others else p.others }

def ofLetter? (p : Permissions) : Char → Option Nat
  | 'r' => some 4
  | 'w' => some 2
  | 'x' => some 1
  | 'X' => some (if p.owner % 2 = 1 || p.group % 2 = 1 || p.others % 2 = 1 then 1 else 0)
  | 's' => some 0
  | 'u' => some p.owner
  | 'g' => some p.group
  | 'o' => some p.others
  | _ => none

def isOperator (c : Char) : Bool :=
  c == '=' || c == '+' || c == '-'

def isWho (c : Char) : Bool :=
  c == 'u' || c == 'g' || c == 'o' || c == 'a'

/-- Make the changes that a text asks for: whom they are for, and then operators with letters. After
a comma they are for others. Letters for what someone may do mean what it was before. -/
def apply (before : Permissions) : Nat → Text → Permissions → Text → Option Permissions
  | _, _, p, [] => some p
  | 0, _, _, _ => none
  | fuel + 1, who, p, t =>
    let named := t.takeWhile isWho
    let who := if who.isEmpty && named.isEmpty then ['a'] else who ++ named
    match t.drop named.length with
    | [] => some p
    | o :: rest =>
      if ! isOperator o then none
      else
        let letters := rest.takeWhile fun c => (before.ofLetter? c).isSome
        let n := (letters.filterMap before.ofLetter?).foldl (· ||| ·) 0
        let p := p.update who fun old =>
          if o == '=' then n else if o == '+' then old ||| n else old &&& (7 - n)
        match rest.drop letters.length with
        | [] => some p
        | c :: rest =>
          if c == ',' then apply before fuel [] p rest
          else if isOperator c then apply before fuel who p (c :: rest)
          else none

def applyAll (p : Permissions) (t : Text) : Option Permissions :=
  p.apply t.length [] p t

end Permissions

def maskOfDigits? (t : Text) : Option Nat :=
  if t.all isOctal then some (t.foldl (fun n c => n * 8 + (c.toNat - '0'.toNat)) 0 % 512) else none

/-- Show or set what is not allowed for new files. -/
def umask (args : List Text) : Run m Nat := do
  let (options, args) ← readOptions "S" [] args
  let old := (← get).mask
  match args with
  | [] =>
    put "umask" ((if options.isEmpty then Text.padLeft '0' 4 (Nat.toDigits 8 old)
      else (Permissions.ofMask old).text) ++ "\n")
  | t :: _ =>
    if t.head?.any Char.isDigit then
      match maskOfDigits? t with
      | some mask => modify fun s => { s with mask }
      | none => Run.fail ("Illegal number: " ++ t)
    else
      match (Permissions.ofMask old).applyAll t with
      | some p => modify fun s => { s with mask := p.mask }
      | none => Run.fail ("Illegal mode: " ++ t)
    return 0

/-- The limits by their letters, what they are called and what they usually are. -/
def usualLimits : List (Char × Text × Limit) :=
  [('t', "time(seconds)", {}), ('f', "file(blocks)", {}), ('d', "data(kbytes)", {}),
    ('s', "stack(kbytes)", { soft := some 8192 }), ('c', "coredump(blocks)", {}),
    ('m', "memory(kbytes)", {}), ('l', "locked memory(kbytes)", ⟨some 8192, some 8192⟩),
    ('p', "process", {}), ('n', "nofiles", ⟨some 1048576, some 1048576⟩),
    ('v', "vmemory(kbytes)", {}), ('w', "locks", {}), ('r', "rtprio", ⟨some 0, some 0⟩)]

/-- Whether a limit is not above another. -/
def isWithinLimit (n limit : Option Nat) : Bool :=
  match n, limit with
  | _, none => true
  | none, some _ => false
  | some n, some limit => n ≤ limit

def ulimit (args : List Text) : Run m Nat := do
  let (options, args) ← readOptions "HSatfdscmlpnvwr" [] args
  let has (c : Char) : Bool := options.any (·.1 == c)
  let both := has 'H' == has 'S'
  let letter := ((options.filter fun (c, _) => c != 'H' && c != 'S' && c != 'a').getLast?.map
    (·.1)).getD 'f'
  let limits := (← get).limits
  let current (c : Char) (usual : Limit) : Limit := (limits.lookup c).getD usual
  let shown (l : Limit) : Text :=
    match if both || has 'S' then l.soft else l.hard with
    | some n => Text.decimal n ++ "\n"
    | none => "unlimited\n"
  match args with
  | _ :: _ :: _ => Run.fail "too many arguments"
  | [] =>
    if has 'a' then
      put "ulimit" (usualLimits.flatMap fun (c, name, usual) =>
        name ++ List.replicate (20 - name.length) ' ' ++ " " ++ shown (current c usual))
    else
      let usual := ((usualLimits.lookup letter).map (·.2)).getD {}
      put "ulimit" (shown (current letter usual))
  | [t] =>
    if has 'a' then Run.fail "too many arguments"
    if t ≠ "unlimited" ∧ ! t.all Char.isDigit then Run.fail "bad number"
    let n := if t = "unlimited" then none
      else some (t.foldl (fun n c => n * 10 + (c.toNat - '0'.toNat)) 0)
    let old := current letter (((usualLimits.lookup letter).map (·.2)).getD {})
    let new : Limit := {
      soft := if both || has 'S' then n else old.soft
      hard := if both || has 'H' then n else old.hard }
    if ! isWithinLimit new.soft new.hard then
      Run.fail "error setting limit (Invalid argument)"
    else if ! isWithinLimit new.hard old.hard then
      Run.fail "error setting limit (Operation not permitted)"
    else
      modify fun s => { s with limits := (letter, new) :: s.limits.filter (·.1 != letter) }
      return 0

end ShaderBackend.Shell.Builtin

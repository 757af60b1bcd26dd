/-!
How a list of arguments is read against the options of a command. An option has long names, which may be cut short as
long as one option remains, and names of one letter, which may stand together behind one hyphen. The argument of an
option follows it, or is joined to it: to a name by an equals sign, to a letter also by nothing. In a group of letters
all that stands behind a letter is joined to it as it is; a joined argument of two hyphens leaves the option empty.
Before any option takes effect all arguments are told apart; an option joined to an argument it does not take, or
without one it needs, and a letter that is no option are refused before the others in the group take effect.
-/
namespace CpuLoad.Arguments

/-- Why a command line is not carried out. -/
inductive Refusal
  /-- It is not well formed. -/
  | usage
  | help
  deriving DecidableEq, Inhabited

/-- What an option does to the state `σ` that a command line builds up. -/
inductive Effect (σ : Type)
  | help
  | flag (set : σ → σ)
  | argument (read : String → σ → Option σ) (empty : σ → σ)

/-- An option. -/
structure OptionSpec (σ : Type) where
  names : List String
  effect : Effect σ

abbrev Joined := Option (List Char)

/-- What an argument is taken for. -/
inductive Mark (σ : Type)
  | argument
  | separator
  /-- Something like an option that no option is meant by. -/
  | unknown
  | option (effect : Effect σ) (letter : Bool) (joined : Joined)

variable {σ : Type}

/-! ### Telling arguments apart -/

def find (options : List (OptionSpec σ)) (name : List Char) : Option (Effect σ) :=
  (options.find? fun o => o.names.contains (String.ofList name)).map (·.effect)

def candidates (options : List (OptionSpec σ)) (name : List Char) : List (Effect σ) :=
  options.flatMap fun o => (o.names.filter fun n => name.isPrefixOf n.toList).map fun _ => o.effect

/-- The text before the first equals sign and the text after it. -/
def splitEquals : List Char → Option (List Char × List Char)
  | [] => none
  | '=' :: rest => some ([], rest)
  | c :: rest => (splitEquals rest).map fun (name, text) => (c :: name, text)

def isLetter (name : List Char) : Bool := name[1]? != some '-'

/-- Whether an argument is a negative number in plain decimal notation, which is never taken for an option. -/
def isNegativeNumber (isDigit : Char → Bool) (cs : List Char) : Bool :=
  match (if cs.getLast? = some '\n' then cs.dropLast else cs) with
  | '-' :: rest =>
    let whole := rest.takeWhile isDigit
    match rest.dropWhile isDigit with
    | [] => whole ≠ []
    | '.' :: fraction => fraction ≠ [] && fraction.all isDigit
    | _ => false
  | _ => false

/-- What an argument before any separator is taken for. -/
def mark (isDigit : Char → Bool) (options : List (OptionSpec σ)) (cs : List Char) : Except Refusal (Mark σ) :=
  let otherwise : Mark σ := if isNegativeNumber isDigit cs || cs.contains ' ' then .argument else .unknown
  match cs with
  | '-' :: second :: tail =>
    match find options cs with
    | some effect => .ok (.option effect (isLetter cs) none)
    | none =>
      let parted := splitEquals cs
      match parted.bind fun (name, text) => (find options name).map fun effect => (effect, name, text) with
      | some (effect, name, text) => .ok (.option effect (isLetter name) (some text))
      | none =>
        if second = '-' then
          let (name, joined) := match parted with
            | some (name, text) => (name, some text)
            | none => (cs, none)
          match candidates options name with
          | [] => .ok otherwise
          | [effect] => .ok (.option effect false joined)
          | _ => .error .usage
        else
          match find options ['-', second] with
          | some effect => .ok (.option effect true (some tail))
          | none => .ok otherwise
  | _ => .ok .argument

/-- What each argument is taken for. Behind a separator there are no options. -/
def marks (isDigit : Char → Bool) (options : List (OptionSpec σ)) :
    List String → Except Refusal (List (String × Mark σ))
  | [] => .ok []
  | a :: rest =>
    if a = "--" then .ok ((a, .separator) :: rest.map fun b => (b, .argument))
    else do
      let m ← mark isDigit options a.toList
      return (a, m) :: (← marks isDigit options rest)

/-! ### Groups of options -/

/-- What the options in one argument come to. -/
structure Group (σ : Type) where
  /-- What they do, in order. -/
  steps : List (σ → Except Refusal σ)
  /-- What the last of them does with the next argument, if it needs that. -/
  pending : Option (String → σ → Option σ)

def withArgument (read : String → σ → Option σ) (text : String) (s : σ) : Except Refusal σ :=
  match read text s with
  | some s => .ok s
  | none => .error .usage

def withJoined (read : String → σ → Option σ) (empty : σ → σ) (text : List Char) (s : σ) : Except Refusal σ :=
  if text = ['-', '-'] then .ok (empty s) else withArgument read (String.ofList text) s

def without : Effect σ → σ → Except Refusal σ
  | .help, _ => .error .help
  | .flag set, s => .ok (set s)
  | .argument .., _ => .error .usage

/-- What is joined to a letter, of the text that stands behind it in a group. -/
def joinedTo : List Char → Joined
  | [] => none
  | text => some text

def Joined.size (j : Joined) : Nat := (j.map List.length).getD 0

private theorem size_joinedTo (text : List Char) : Joined.size (joinedTo text) = text.length := by
  cases text <;> simp [joinedTo, Joined.size]

def group (options : List (OptionSpec σ)) (effect : Effect σ) (letter : Bool) :
    Joined → Except Refusal (Group σ)
  | none =>
    match effect with
    | .argument read _ => .ok ⟨[], some read⟩
    | e => .ok ⟨[without e], none⟩
  | some cs =>
    match effect, cs with
    | .argument read empty, cs => .ok ⟨[withJoined read empty cs], none⟩
    | _, [] => .error .usage
    | e, c :: rest =>
      if !letter then .error .usage
      else match find options ['-', c] with
        | none => .error .usage
        | some next => do
          let g ← group options next true (joinedTo rest)
          return { g with steps := without e :: g.steps }
termination_by j => Joined.size j
decreasing_by
  rw [size_joinedTo]
  simp [Joined.size]

/-! ### Reading a level -/

/-- What stands where no option does: a command that takes over the rest, or nothing that belongs there. -/
abbrev Continuation (σ : Type) := Option (String → List String → σ → Except Refusal (σ × Bool))

/-- The state after some marked arguments, and whether some of them belong nowhere. -/
def readMarked (options : List (OptionSpec σ)) (command : Continuation σ) :
    List (String × Mark σ) → σ → Bool → Except Refusal (σ × Bool)
  | [], s, surplus => .ok (s, surplus)
  | (_, .separator) :: _, s, _ => .ok (s, true)
  | (_, .unknown) :: rest, s, _ => readMarked options command rest s true
  | (a, .argument) :: rest, s, surplus =>
    match command with
    | none => readMarked options command rest s true
    | some run => do
      let (s, more) ← run a (rest.map (·.1)) s
      return (s, surplus || more)
  | (_, .option effect letter joined) :: rest, s, surplus => do
    let g ← group options effect letter joined
    match g.pending, rest with
    | none, rest =>
      let s ← g.steps.foldlM (fun s step => step s) s
      readMarked options command rest s surplus
    | some read, (text, .argument) :: rest =>
      let s ← g.steps.foldlM (fun s step => step s) s
      let s ← withArgument read text s
      readMarked options command rest s surplus
    | some _, _ => .error .usage

/-- The state after some arguments, and whether some of them belong nowhere. -/
def read (isDigit : Char → Bool) (options : List (OptionSpec σ)) (command : Continuation σ) (args : List String)
    (s : σ) : Except Refusal (σ × Bool) := do
  readMarked options command (← marks isDigit options args) s false

end CpuLoad.Arguments

import StyledText.Settings.Cache

/-!
# Sessions

A session is the life of one cache. Variables are set and unset, and between that the cache is asked
for settings; what it answers may depend on the environment of that moment. The **log** of a session
has one entry for each call, with the environment that it found and the answer that it got.
-/

namespace StyledText

namespace Settings

/-- What can be asked of the cache. -/
inductive Call where
  /-- the settings that are kept, or those of now -/
  | get
  /-- the settings of now, which are kept from then on -/
  | reload
  /-- the settings of now, for once -/
  | create
  deriving DecidableEq, Repr

/-- Asks the cache for settings. -/
def Call.perform (c : Call) (env : Environment) (cache : Cache) : Except Problem Reading × Cache :=
  match c with
  | get => cache.get env
  | reload => cache.reload env
  | create => cache.create env

/-- What happens in a session. -/
inductive Step where
  /-- a variable is set, or unset -/
  | change (name : Text) (value : Option Text)
  /-- the cache is asked for settings -/
  | call (c : Call)
  deriving DecidableEq, Repr

/-- A call with the environment that it found and the answer that it got. -/
structure Entry where
  call : Call
  env : Environment
  answer : Except Problem Reading
  deriving Repr

/-- An environment and a cache. -/
structure Session where
  env : Environment := []
  cache : Cache := {}
  deriving DecidableEq, Repr

namespace Session

/-- Makes a call: the answer, and the session afterwards. -/
def ask (c : Call) (s : Session) : Except Problem Reading × Session :=
  let (answer, cache) := c.perform s.env s.cache
  (answer, { s with cache := cache })

/-- The entry of a call. -/
def entry (c : Call) (s : Session) : Entry := ⟨c, s.env, (s.ask c).1⟩

/-- The session after a step. -/
def step (s : Session) : Step → Session
  | .change name value => { s with env := s.env.update name value }
  | .call c => (s.ask c).2

/-- The session after steps. -/
def run (steps : List Step) (s : Session) : Session := steps.foldl step s

/-- The entries of the calls among steps. -/
def log : List Step → Session → List Entry
  | [], _ => []
  | .change name value :: steps, s => log steps (s.step (.change name value))
  | .call c :: steps, s => s.entry c :: log steps (s.step (.call c))

/-- What is done first stays done. -/
theorem run_append (earlier later : List Step) (s : Session) :
    s.run (earlier ++ later) = (s.run earlier).run later :=
  List.foldl_append

/-- A log in two parts. -/
theorem log_append (earlier later : List Step) (s : Session) :
    s.log (earlier ++ later) = s.log earlier ++ (s.run earlier).log later := by
  induction earlier generalizing s with
  | nil => rfl
  | cons x earlier ih =>
    cases x with
    | change name value => exact ih _
    | call c => exact congrArg (s.entry c :: ·) (ih _)

end Session

end Settings

end StyledText

import ReplyFlow.Store.Memory
import ReplyFlow.Store.Table

/-! What the operations of a running application share: the environment, the clock, the ids given
out so far, the connection to the database, the store that is in use, and the journal.

The database is present as the answer that it will give to the next query.
-/

set_option autoImplicit false

namespace ReplyFlow

open Schema Time

/-- A clock that moves on by `tick` microseconds whenever it is read. -/
structure Clock where
  micros : Int
  tick : Int
  deriving Repr, DecidableEq

def Clock.advance (clock : Clock) : Clock :=
  { clock with micros := clock.micros + clock.tick }

/-- Where workflows are kept. -/
inductive Store where
  | memory (memory : Memory)
  | table (name : String)
  deriving Repr, DecidableEq

structure Session where
  environment : Environment
  clock : Clock
  /-- How many ids have been given out. -/
  issued : Nat
  /-- The error of a new connection to the database, if it will fail. -/
  refusal : Option String
  connected : Bool
  store : Option Store
  /-- How many stores have been opened. -/
  opened : Nat
  reply : Reply
  queries : List Query
  journal : Journal

/-- Work within a session that may fail; what it did before it failed remains done. -/
abbrev Action (ε α : Type) := ExceptT ε (StateM Session) α

namespace Session

/-- The start of 2026 in microseconds. -/
def firstMoment : Int := 1767225600000000

def opening (environment : Environment) (tick : Int) (refusal : Option String) : Session where
  environment := environment
  clock := ⟨firstMoment, tick⟩
  issued := 0
  refusal := refusal
  connected := false
  store := none
  opened := 0
  reply := .rows []
  queries := []
  journal := []

def settings (session : Session) : Checked Settings :=
  Settings.ofEnvironment session.environment

def log (session : Session) (events : Journal) : Session :=
  { session with journal := session.journal ++ events }

def keep (session : Session) (store : Store) : Session :=
  { session with store := some store }

end Session

variable {ε : Type}

def Action.log (event : Event) : Action ε Unit :=
  modify (·.log [event])

/-- The time, which moves on. -/
def Action.now : Action ε Timestamp := do
  let session ← get
  set { session with clock := session.clock.advance }
  return .universal session.clock.micros

def idOf (number : Nat) : String :=
  "workflow-" ++ String.ofList (Text.paddedDigits 16 12 number)

/-- An id that has not been given out before. -/
def Action.newId : Action ε String := do
  let session ← get
  set { session with issued := session.issued + 1 }
  return idOf (session.issued + 1)

/-- Asks a query; the answer is there already. -/
def Action.ask (query : Query) : Action ε Reply := do
  let session ← get
  set ({ session with queries := session.queries ++ [query] }.log (query.events session.reply))
  return session.reply

def Action.settings : Action StoreFault Settings := do
  match (← get).settings with
  | .ok settings => return settings
  | .bad issues => throw (.settings issues)

/-- Who creates a workflow: whoever is named, else the one that the settings name. -/
def Action.creator (entry : Entry) : Action StoreFault String :=
  match entry.namedCreator? with
  | some creator => return creator
  | none => return (← Action.settings).creator

def Action.expect {α : Type} (result : Except StoreFault α) : Action StoreFault α :=
  liftM result

/-! ### The connection and the store -/

/-- Connects to the database if the settings say how; the outcome tells if there is a
connection. -/
def Action.connect : Action StoreFault Bool := do
  if (← get).connected then return true
  let settings ← Action.settings
  if settings.databaseUrl.isEmpty || settings.databaseKey.isEmpty then
    Action.log (.databaseNotConfigured (!settings.databaseUrl.isEmpty)
      (!settings.databaseKey.isEmpty))
    return false
  match (← get).refusal with
  | some error =>
    Action.log (.databaseRefused error)
    return false
  | none =>
    modify fun session => { session with connected := true }
    Action.log (.databaseConnected settings.table)
    return true

def Action.openStore (store : Store) : Action ε Store := do
  modify fun session => { session.keep store with opened := session.opened + 1 }
  return store

/-- A store in the table of this name, or in that of the settings. -/
def Action.openTable (name : Option String) : Action StoreFault Store := do
  match name.filter (!·.isEmpty) with
  | some name => Action.openStore (.table name)
  | none => Action.openStore (.table (← Action.settings).table)

/-- The store in use. The first one is a table if there is a connection, and in memory if not. -/
def Action.store : Action StoreFault Store := do
  match (← get).store with
  | some store => return store
  | none =>
    if ← Action.connect then Action.openTable none
    else
      Action.log .storeInMemory
      Action.openStore (.memory .empty)

def Action.keepMemory (memory : Memory) : Action ε Unit :=
  modify (·.keep (.memory memory))

end ReplyFlow

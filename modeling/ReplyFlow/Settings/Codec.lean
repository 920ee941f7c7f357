import ReplyFlow.Graph.Codec
import ReplyFlow.Settings.Basic

/-! Settings from given values and from the environment.

A given value counts before a variable of the environment, and that before the default. Both go by
the names of the settings, in upper or lower case.
-/

set_option autoImplicit false

namespace ReplyFlow

open Schema

/-- Variables with their values. -/
abbrev Environment := List (String × String)

/-- A name in lower case, in which the sign of the kelvin is the letter. -/
def lowerName (name : String) : String :=
  (name.map fun c => if c == '\u212A' then 'k' else c).toLower

/-- The last variable with this name in any case. -/
def Environment.find? (environment : Environment) (name : String) : Option String :=
  (environment.reverse.find? fun entry => lowerName entry.1 == name).map Prod.snd

namespace Settings

def names : List String :=
  ["app_name", "debug", "origin_x", "origin_y", "level_spacing", "branch_spacing", "max_depth",
    "delay_duration", "delay_unit", "terminal_response_policy", "include_inactive_templates",
    "message_recipient", "supabase_url", "supabase_service_key", "workflows_table",
    "default_created_by"]

/-- The value of the first member with this name in any case. -/
def given? (values : Json.Members) (name : String) : Option Json :=
  (List.find? (fun member => lowerName member.1 == name) values).map Prod.snd

def source? (environment : Environment) (values : Json.Members) (name : String) :
    Option (String × Json) :=
  match given? values name with
  | some value => some (name, value)
  | none => (environment.find? name).map fun value => (name, .text value)

/-- Values that are no settings. -/
def strangers (values : Json.Members) : Json.Members :=
  values.filter fun member => !names.contains (lowerName member.1)

def checkMembers (members : Json.Members) : Checked Settings :=
  (fun appName debug x y levelSpacing branchSpacing maxDepth delayDuration delayUnit policy
      includeInactive recipient databaseUrl databaseKey table creator =>
    Settings.mk appName debug ⟨x, y⟩ levelSpacing branchSpacing maxDepth delayDuration delayUnit
      policy includeInactive recipient databaseUrl databaseKey table creator)
    <$> optional members ["app_name"] default.appName text
    <*> optional members ["debug"] default.debug flag
    <*> optional members ["origin_x"] default.origin.x number
    <*> optional members ["origin_y"] default.origin.y number
    <*> optional members ["level_spacing"] default.levelSpacing number
    <*> optional members ["branch_spacing"] default.branchSpacing number
    <*> optional members ["max_depth"] default.maxDepth whole
    <*> optional members ["delay_duration"] default.delayDuration whole
    <*> optional members ["delay_unit"] default.delayUnit (literal DelayUnit.choices)
    <*> optional members ["terminal_response_policy"] default.policy
      (literal TerminalPolicy.choices)
    <*> optional members ["include_inactive_templates"] default.includeInactive flag
    <*> optional members ["message_recipient"] default.recipient text
    <*> optional members ["supabase_url"] default.databaseUrl text
    <*> optional members ["supabase_service_key"] default.databaseKey text
    <*> optional members ["workflows_table"] default.table text
    <*> optional members ["default_created_by"] default.creator text

def noStrangers (values : Json.Members) : Checked Unit :=
  match strangers values with
  | [] => .ok ()
  | others => .bad (others.map fun (name, value) => ⟨[.field name], .unexpected, value⟩)

def check (environment : Environment) (values : Json.Members) : Checked Settings :=
  (fun settings _ => settings)
    <$> checkMembers (names.filterMap (source? environment values)) <*> noStrangers values

/-- The settings of the environment alone. -/
def ofEnvironment (environment : Environment) : Checked Settings :=
  check environment []

def json (settings : Settings) : Json :=
  .object [("app_name", .text settings.appName), ("debug", .bool settings.debug),
    ("origin_x", .number settings.origin.x), ("origin_y", .number settings.origin.y),
    ("level_spacing", .number settings.levelSpacing),
    ("branch_spacing", .number settings.branchSpacing),
    ("max_depth", .whole settings.maxDepth), ("delay_duration", .whole settings.delayDuration),
    ("delay_unit", .text settings.delayUnit.name),
    ("terminal_response_policy", .text settings.policy.name),
    ("include_inactive_templates", .bool settings.includeInactive),
    ("message_recipient", .text settings.recipient),
    ("supabase_url", .text settings.databaseUrl),
    ("supabase_service_key", .text settings.databaseKey),
    ("workflows_table", .text settings.table), ("default_created_by", .text settings.creator)]

end Settings

end ReplyFlow

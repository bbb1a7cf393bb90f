import R1Emu.Lib.Checks
import R1Emu.Startup.GlobalServer

/-!
# The configuration of the global server

The configuration is an object of sections. Each of them is read field by field, and the first
field that is missing ends the reading with a message that names it.
-/
namespace R1Emu.Startup
open R1Emu.Lib.Buffer R1Emu.Lib.CFormat R1Emu.Lib.Checks

/-! ### Reading -/

/-- What `json_loads` makes of a file. -/
inductive Json
  | null
  | boolean (b : Bool)
  | number (digits : Text)
  | string (s : ZString)
  | array (items : List Json)
  | object (members : List (Text × Json))

def jsonObjectGet : Json → String → Option Json
  | .object members, name => members.lookup (text name)
  | _, _ => none

/-- A field that is a string. -/
def requiredString (object : Json) (name : String) (messages : List Text) :
    Except (List Text) ZString :=
  match jsonObjectGet object name with
  | some (.string s) => .ok s
  | _ => .error messages

def requiredObject (object : Json) (name : String) (messages : List Text) :
    Except (List Text) Json :=
  match jsonObjectGet object name with
  | some (.object members) => .ok (.object members)
  | _ => .error messages

def requiredArray (object : Json) (name : String) (messages : List Text) :
    Except (List Text) (List Json) :=
  match jsonObjectGet object name with
  | some (.array items) => .ok items
  | _ => .error messages

def sectionMessage (name : String) : Text :=
  text "Cannot read '" ++ text name ++ text "' section correctly."

def fieldMessage (name : String) : Text := text "Cannot read '" ++ text name ++ text "' field."

def sectionFieldMessage (name field : String) : Text :=
  text "Cannot read '" ++ text field ++ text "' field in '" ++ text name ++
    text "' section correctly."

def entryMessage (kind name : String) (id : ℕ) : Text :=
  text "Cannot read " ++ text kind ++ text " server entry " ++ decimal id ++ text " in '" ++
    text name ++ text "'"

def globalServerReadBasicServerConf (servers : List Json) (serverId : ℕ) :
    Except (List Text) BasicServerConf :=
  match servers[serverId]? with
  | none => .error [text "Cannot get element ID = " ++ decimal serverId ++ text "."]
  | some server => do
    let ip ← requiredString server "ip" [fieldMessage "ip"]
    let port ← requiredString server "port" [fieldMessage "port"]
    let workersCount ← requiredString server "workersCount" [fieldMessage "workersCount"]
    let output ← requiredString server "output" [fieldMessage "output"]
    return ⟨ip, atoi port, atoi workersCount, output⟩

/-- One of the sections with the servers of a kind. -/
def readServers (root : Json) (name kind : String) : Except (List Text) (List BasicServerConf) := do
  let servers ← requiredArray root name [sectionMessage name]
  readAll (fun id => (globalServerReadBasicServerConf servers id).mapError
    (· ++ [entryMessage kind name id])) (List.range servers.length)

/-- What is found under the path of the configuration. -/
inductive ConfFile
  | unreadable (confFilePath : Text)
  | malformed (line : ℕ) (reason : Text)
  | json (root : Json)

def readRoot : Json → Except (List Text) Json
  | .object members => .ok (.object members)
  | _ => .error [text "Cannot read JSON correctly."]

/-- The information, and the name of the file to which messages go. -/
def globalServerInfoInit : ConfFile → Except (List Text) (GlobalServerInfo × ZString)
  | .unreadable confFilePath =>
    .error [text "Cannot read the configuration file (" ++ confFilePath ++ text ")."]
  | .malformed line reason =>
    .error [text "Cannot load JSON correctly : Line " ++ decimal line ++ text " : " ++ reason]
  | .json root => do
    let root ← readRoot root
    let globalServer ← requiredObject root "globalServer" [sectionMessage "globalServer"]
    let ip ← requiredString globalServer "ip" [sectionFieldMessage "globalServer" "ip"]
    let port ← requiredString globalServer "port" [sectionFieldMessage "globalServer" "port"]
    let output ← requiredString globalServer "output" [fieldMessage "output"]
    let barracksConf ← readServers root "barrackServers" "barrack"
    let socialsConf ← readServers root "socialServers" "social"
    let zonesConf ← readServers root "zoneServers" "zone"
    let mysqlServer ← requiredObject root "mysqlServer" [sectionMessage "mysqlServer"]
    let sqlHost ← requiredString mysqlServer "host" [sectionFieldMessage "mysqlServer" "host"]
    let user ← requiredString mysqlServer "user" [sectionFieldMessage "mysqlServer" "user"]
    let password ←
      requiredString mysqlServer "password" [sectionFieldMessage "mysqlServer" "password"]
    let database ←
      requiredString mysqlServer "database" [sectionFieldMessage "mysqlServer" "database"]
    let redisServer ← requiredObject root "redisServer" [sectionMessage "redisServer"]
    let redisHost ← requiredString redisServer "host" [sectionFieldMessage "redisServer" "host"]
    let redisPort ← requiredString redisServer "port" [sectionFieldMessage "redisServer" "port"]
    return (⟨ip, atoi port, barracksConf, socialsConf, zonesConf,
      ⟨sqlHost, user, password, database⟩, ⟨redisHost, atoi redisPort⟩⟩, output)

/-! ### Requirements -/

inductive PathStep
  | key (name : String)
  | index (i : ℕ)

inductive Kind
  | object
  | array
  | string

def Json.child : Json → PathStep → Option Json
  | json, .key name => jsonObjectGet json name
  | .array items, .index i => items[i]?
  | _, .index _ => none

/-- The value at a path. -/
def Json.at (root : Json) (path : List PathStep) : Option Json := path.foldlM Json.child root

def Json.hasKind : Json → Kind → Bool
  | .object _, .object => true
  | .array _, .array => true
  | .string _, .string => true
  | _, _ => false

/-- What has to be at a path, and the messages when it is not. -/
structure Requirement where
  path : List PathStep
  kind : Kind
  messages : List Text

def Requirement.met (root : Json) (r : Requirement) : Bool :=
  (root.at r.path).any fun json => json.hasKind r.kind

def textAt (root : Json) (path : List PathStep) : ZString :=
  match root.at path with
  | some (.string s) => s
  | _ => ⟨[], List.not_mem_nil⟩

def itemsAt (root : Json) (path : List PathStep) : List Json :=
  match root.at path with
  | some (.array items) => items
  | _ => []

/-- The fields of a section that is an object. -/
def sectionRequirements (name : String) (fields : List String) : List Requirement :=
  ⟨[.key name], .object, [sectionMessage name]⟩ :: fields.map fun field =>
    ⟨[.key name, .key field], .string, [sectionFieldMessage name field]⟩

def basicRequirements (name : String) (id : ℕ) : List Requirement :=
  ["ip", "port", "workersCount", "output"].map fun field =>
    ⟨[.key name, .index id, .key field], .string, [fieldMessage field]⟩

/-- The message of an entry comes behind that of its field. -/
def entryRequirement (kind name : String) (id : ℕ) (r : Requirement) : Requirement :=
  { r with messages := r.messages ++ [entryMessage kind name id] }

def serversRequirements (root : Json) (name kind : String) : List Requirement :=
  ⟨[.key name], .array, [sectionMessage name]⟩ ::
    (List.range (itemsAt root [.key name]).length).flatMap fun id =>
      (basicRequirements name id).map (entryRequirement kind name id)

/-- All requirements in the order in which they are checked. -/
def requirements (root : Json) : List Requirement :=
  ⟨[], .object, [text "Cannot read JSON correctly."]⟩ ::
    (sectionRequirements "globalServer" ["ip", "port"] ++
      (⟨[.key "globalServer", .key "output"], .string, [fieldMessage "output"]⟩ ::
        (serversRequirements root "barrackServers" "barrack" ++
          (serversRequirements root "socialServers" "social" ++
            (serversRequirements root "zoneServers" "zone" ++
              (sectionRequirements "mysqlServer" ["host", "user", "password", "database"] ++
                sectionRequirements "redisServer" ["host", "port"]))))))

def basicConfAt (root : Json) (name : String) (id : ℕ) : BasicServerConf where
  ip := textAt root [.key name, .index id, .key "ip"]
  port := atoi (textAt root [.key name, .index id, .key "port"])
  workersCount := atoi (textAt root [.key name, .index id, .key "workersCount"])
  output := textAt root [.key name, .index id, .key "output"]

def serversAt (root : Json) (name : String) : List BasicServerConf :=
  (List.range (itemsAt root [.key name]).length).map (basicConfAt root name)

/-- What the values at the paths say. -/
def configured (root : Json) : GlobalServerInfo × ZString where
  fst := {
    ip := textAt root [.key "globalServer", .key "ip"]
    port := atoi (textAt root [.key "globalServer", .key "port"])
    barracksConf := serversAt root "barrackServers"
    socialsConf := serversAt root "socialServers"
    zonesConf := serversAt root "zoneServers"
    sqlInfo := {
      hostname := textAt root [.key "mysqlServer", .key "host"]
      user := textAt root [.key "mysqlServer", .key "user"]
      password := textAt root [.key "mysqlServer", .key "password"]
      database := textAt root [.key "mysqlServer", .key "database"] }
    redisInfo := {
      hostname := textAt root [.key "redisServer", .key "host"]
      port := atoi (textAt root [.key "redisServer", .key "port"]) } }
  snd := textAt root [.key "globalServer", .key "output"]

section Root
variable {root object : Json} {path : List PathStep} {name : String} {messages : List Text}

theorem at_concat (h : root.at path = some object) (step : PathStep) :
    root.at (path ++ [step]) = object.child step := by
  rw [Json.at] at h ⊢
  rw [List.foldlM_append, h]
  simp

theorem requiredString_eq (h : root.at path = some object) :
    requiredString object name messages = verdict (Requirement.met root) Requirement.messages
      [⟨path ++ [.key name], .string, messages⟩] (textAt root (path ++ [.key name])) := by
  have hat : root.at (path ++ [.key name]) = jsonObjectGet object name := at_concat h (.key name)
  apply eq_verdict_singleton
  all_goals
    intro hmet
    rw [Requirement.met, hat] at hmet
    simp only [requiredString, textAt, hat]
    cases hget : jsonObjectGet object name with
    | none => simp_all
    | some json => cases json <;> simp_all [Json.hasKind]

theorem requiredObject_eq (h : root.at path = some object) :
    requiredObject object name messages = verdict (Requirement.met root) Requirement.messages
      [⟨path ++ [.key name], .object, messages⟩] ((root.at (path ++ [.key name])).getD .null) := by
  have hat : root.at (path ++ [.key name]) = jsonObjectGet object name := at_concat h (.key name)
  apply eq_verdict_singleton
  all_goals
    intro hmet
    rw [Requirement.met, hat] at hmet
    simp only [requiredObject, hat]
    cases hget : jsonObjectGet object name with
    | none => simp_all
    | some json => cases json <;> simp_all [Json.hasKind]

theorem requiredArray_eq (h : root.at path = some object) :
    requiredArray object name messages = verdict (Requirement.met root) Requirement.messages
      [⟨path ++ [.key name], .array, messages⟩] (itemsAt root (path ++ [.key name])) := by
  have hat : root.at (path ++ [.key name]) = jsonObjectGet object name := at_concat h (.key name)
  apply eq_verdict_singleton
  all_goals
    intro hmet
    rw [Requirement.met, hat] at hmet
    simp only [requiredArray, itemsAt, hat]
    cases hget : jsonObjectGet object name with
    | none => simp_all
    | some json => cases json <;> simp_all [Json.hasKind]

/-- There is a value where a requirement is met. -/
theorem at_of_met {r : Requirement} (h : r.met root = true) :
    root.at r.path = some ((root.at r.path).getD .null) := by
  cases hat : root.at r.path with
  | none => simp [Requirement.met, hat] at h
  | some json => rfl

theorem at_of_array (h : Requirement.met root ⟨path, .array, messages⟩ = true) :
    root.at path = some (.array (itemsAt root path)) := by
  cases hat : root.at path with
  | none => simp [Requirement.met, hat] at h
  | some json => cases json <;> simp_all [Requirement.met, Json.hasKind, itemsAt]

theorem globalServerReadBasicServerConf_eq {servers : List Json} {serverId : ℕ}
    (h : root.at [.key name] = some (.array servers)) (hid : serverId < servers.length) :
    globalServerReadBasicServerConf servers serverId =
      verdict (Requirement.met root) Requirement.messages (basicRequirements name serverId)
        (basicConfAt root name serverId) := by
  have hserver : root.at ([.key name] ++ [.index serverId]) = some servers[serverId] := by
    rw [at_concat h]
    exact List.getElem?_eq_getElem hid
  rw [globalServerReadBasicServerConf, List.getElem?_eq_getElem hid]
  simp only [requiredString_eq hserver]
  refine verdict_bind fun _ => verdict_bind fun _ => verdict_bind fun _ => verdict_bind fun _ => ?_
  rfl

theorem readServers_eq {kind : String} : readServers root name kind =
    verdict (Requirement.met root) Requirement.messages (serversRequirements root name kind)
      (serversAt root name) := by
  have hroot : root.at [] = some root := rfl
  rw [readServers, requiredArray_eq hroot]
  refine verdict_bind fun hmet => ?_
  have harray := at_of_array (hmet _ (List.mem_singleton_self _))
  apply readAll_eq
  intro id hid
  rw [globalServerReadBasicServerConf_eq harray (List.mem_range.mp hid)]
  apply verdict_mapError
  · exact fun r => rfl
  · exact fun r => rfl

theorem readRoot_eq (root : Json) : readRoot root =
    verdict (Requirement.met root) Requirement.messages
      [⟨[], .object, [text "Cannot read JSON correctly."]⟩] root := by
  apply eq_verdict_singleton
  all_goals
    intro hmet
    change root.hasKind .object = _ at hmet
    cases root <;> simp_all [Json.hasKind, readRoot]

/-- The requirements are checked in a row. -/
theorem globalServerInfoInit_json (root : Json) : globalServerInfoInit (.json root) =
    verdict (Requirement.met root) Requirement.messages (requirements root) (configured root) := by
  have hroot : root.at [] = some root := rfl
  rw [globalServerInfoInit, readRoot_eq]
  refine verdict_bind fun _ => ?_
  simp only [requiredObject_eq hroot, readServers_eq]
  refine verdict_bind fun hglobal => ?_
  have hserver := at_of_met (hglobal _ (List.mem_singleton_self _))
  simp only [requiredString_eq hserver]
  refine verdict_bind fun _ => verdict_bind fun _ => verdict_bind fun _ => ?_
  refine verdict_bind fun _ => verdict_bind fun _ => verdict_bind fun _ => ?_
  refine verdict_bind fun hmysql => ?_
  have hmysqlServer := at_of_met (hmysql _ (List.mem_singleton_self _))
  simp only [requiredString_eq hmysqlServer]
  refine verdict_bind fun _ => verdict_bind fun _ => verdict_bind fun _ => verdict_bind fun _ => ?_
  refine verdict_bind fun hredis => ?_
  have hredisServer := at_of_met (hredis _ (List.mem_singleton_self _))
  simp only [requiredString_eq hredisServer]
  refine verdict_bind fun _ => verdict_bind fun _ => ?_
  rfl

end Root

/-! ### Writing -/

def entryJson (conf : BasicServerConf) : Json :=
  .object [(text "ip", .string conf.ip), (text "port", .string (decimalString conf.port.toInt)),
    (text "workersCount", .string (decimalString conf.workersCount.toInt)),
    (text "output", .string conf.output)]

/-- A configuration with this information. -/
def configuration (info : GlobalServerInfo) (output : ZString) : Json :=
  .object [
    (text "globalServer", .object [(text "ip", .string info.ip),
      (text "port", .string (decimalString info.port.toInt)), (text "output", .string output)]),
    (text "barrackServers", .array (info.barracksConf.map entryJson)),
    (text "socialServers", .array (info.socialsConf.map entryJson)),
    (text "zoneServers", .array (info.zonesConf.map entryJson)),
    (text "mysqlServer", .object [(text "host", .string info.sqlInfo.hostname),
      (text "user", .string info.sqlInfo.user), (text "password", .string info.sqlInfo.password),
      (text "database", .string info.sqlInfo.database)]),
    (text "redisServer", .object [(text "host", .string info.redisInfo.hostname),
      (text "port", .string (decimalString info.redisInfo.port.toInt))])]

section Written
variable {root : Json} {name kind : String} {confs : List BasicServerConf}

theorem textAt_eq {path : List PathStep} {s : ZString} (h : root.at path = some (.string s)) :
    textAt root path = s := by
  rw [textAt, h]

theorem at_entry (h : root.at [.key name] = some (.array (confs.map entryJson))) {id : ℕ}
    (hid : id < confs.length) (field : String) :
    root.at [.key name, .index id, .key field] = jsonObjectGet (entryJson confs[id]) field := by
  have hentry : root.at ([.key name] ++ [.index id]) = some (entryJson confs[id]) := by
    rw [at_concat h, Json.child, List.getElem?_map, List.getElem?_eq_getElem hid, Option.map_some]
  exact at_concat hentry (.key field)

theorem itemsAt_written (h : root.at [.key name] = some (.array (confs.map entryJson))) :
    itemsAt root [.key name] = confs.map entryJson := by
  rw [itemsAt, h]

theorem serversRequirements_met (h : root.at [.key name] = some (.array (confs.map entryJson))) :
    ∀ r ∈ serversRequirements root name kind, r.met root = true := by
  intro r hr
  rcases List.mem_cons.mp hr with rfl | hr
  · rw [Requirement.met, h]
    rfl
  obtain ⟨id, hid, hr⟩ := List.mem_flatMap.mp hr
  obtain ⟨basic, hbasic, rfl⟩ := List.mem_map.mp hr
  obtain ⟨field, hfield, rfl⟩ := List.mem_map.mp hbasic
  rw [itemsAt_written h, List.length_map, List.mem_range] at hid
  rw [Requirement.met, entryRequirement, at_entry h hid]
  simp only [List.mem_cons, List.not_mem_nil, or_false] at hfield
  rcases hfield with rfl | rfl | rfl | rfl <;> rfl

theorem serversAt_written (h : root.at [.key name] = some (.array (confs.map entryJson))) :
    serversAt root name = confs := by
  apply List.ext_getElem
  · rw [serversAt, itemsAt_written h]
    simp
  · intro id hleft hid
    have hentry := at_entry h hid
    simp only [serversAt, List.getElem_map, List.getElem_range, basicConfAt]
    rw [textAt_eq ((hentry "ip").trans rfl), textAt_eq ((hentry "port").trans rfl),
      textAt_eq ((hentry "workersCount").trans rfl), textAt_eq ((hentry "output").trans rfl),
      atoi_decimal, atoi_decimal]

end Written

section Configuration
variable (info : GlobalServerInfo) (output : ZString)

theorem at_barracks : (configuration info output).at [.key "barrackServers"] =
    some (.array (info.barracksConf.map entryJson)) := rfl

theorem at_socials : (configuration info output).at [.key "socialServers"] =
    some (.array (info.socialsConf.map entryJson)) := rfl

theorem at_zones : (configuration info output).at [.key "zoneServers"] =
    some (.array (info.zonesConf.map entryJson)) := rfl

theorem requirements_met :
    ∀ r ∈ requirements (configuration info output), r.met (configuration info output) = true := by
  rw [requirements]
  simp only [List.forall_mem_cons, List.forall_mem_append]
  exact ⟨rfl, List.all_eq_true.mp rfl, rfl, serversRequirements_met (at_barracks info output),
    serversRequirements_met (at_socials info output),
    serversRequirements_met (at_zones info output), List.all_eq_true.mp rfl,
    List.all_eq_true.mp rfl⟩

theorem configured_configuration : configured (configuration info output) = (info, output) := by
  have hport : textAt (configuration info output) [.key "globalServer", .key "port"] =
      decimalString info.port.toInt := textAt_eq rfl
  have hredisPort : textAt (configuration info output) [.key "redisServer", .key "port"] =
      decimalString info.redisInfo.port.toInt := textAt_eq rfl
  rw [configured, serversAt_written (at_barracks info output),
    serversAt_written (at_socials info output), serversAt_written (at_zones info output), hport,
    hredisPort, atoi_decimal, atoi_decimal]
  rfl

end Configuration

/-- A configuration is read as its values say, or refused with the messages of the first
requirement that it does not meet; and all information can be written as one that is read so. -/
theorem globalServerInfoInit_reads :
    (∀ root, globalServerInfoInit (.json root) =
      verdict (Requirement.met root) Requirement.messages (requirements root) (configured root)) ∧
    ∀ info output, globalServerInfoInit (.json (configuration info output)) = .ok (info, output) := by
  refine ⟨globalServerInfoInit_json, fun info output => ?_⟩
  rw [globalServerInfoInit_json, verdict_of_forall (requirements_met info output),
    configured_configuration]

end R1Emu.Startup

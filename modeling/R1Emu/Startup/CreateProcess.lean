import R1Emu.Lib.CFormat
import R1Emu.Startup.ServerInfo
import R1Emu.Utils.StrSplit

/-!
# Launching a server

A server is another process. What it is started with is printed into a command line, which is
split at its spaces, and the process reads its parameters from the words one after the other. The
numbers among them were printed from an `int`, so that the size of a `long` makes no difference.
-/
namespace R1Emu.Startup
open R1Emu.Lib.Buffer R1Emu.Lib.CFormat R1Emu.Lib.Words R1Emu.Utils
open R1Emu.Server (ServerType)

/-! ### The command line -/

/-- `zsys_sprintf`. -/
def zsysSprintf (format : String) (args : List Arg) : Option Text :=
  (pieces (text format)).bind fun format => printf format args

def stringArg (s : ZString) : Arg := .string s.chars

def intArg (i : Int32) : Arg := .word i.toUInt32.toUInt64

def serverTypeCode : ServerType → Int32
  | .global => 0
  | .barrack => 1
  | .social => 2
  | .zone => 3

def commandLine (self : ServerInfo) (worker : WorkerInfo) (executableName : Text) : Option Text :=
  (zsysSprintf "%s %d %s %d" [.string executableName,
    .word self.routerInfo.routerId.toUInt64, stringArg self.routerInfo.ip,
    intArg self.routerInfo.port]).bind fun commandLine =>
  zsysSprintf "%s %d %s %d %s %s %s %s %s %d %d %s" [.string commandLine,
    intArg self.routerInfo.workersCount,
    stringArg worker.globalServerIp, intArg worker.globalServerPort,
    stringArg worker.sqlInfo.hostname, stringArg worker.sqlInfo.user,
    stringArg worker.sqlInfo.password, stringArg worker.sqlInfo.database,
    stringArg worker.redisInfo.hostname, intArg worker.redisInfo.port,
    intArg (serverTypeCode self.serverType), stringArg self.output]

/-- `execv` hands on the strings in front of the first null pointer. -/
def arguments : List Pointer → Option (List ZString)
  | [] => none
  | .null :: _ => some []
  | .indeterminate :: _ => none
  | .string chars :: entries =>
    (zstring (chars ++ [0]) 0).bind fun s => (arguments entries).map (s :: ·)

/-- The arguments of the process. The first worker's entry is read in any case. -/
def serverCreateProcess (m : Allocations) (self : ServerInfo) (executableName : Text) :
    Option (List ZString) :=
  (self.workersInfo.head?.join).bind fun worker =>
    (commandLine self worker executableName).bind fun commandLine =>
      (zstring (commandLine ++ [0]) 0).bind fun commandLine =>
        (strSplit m commandLine 32).bind fun argv => (argv.map arguments).getD (some [])

def zoneServerExecutableName : Text := text "zone_server"

/-- Nothing when a call does not come back or is undefined, and otherwise the arguments of the
process if there is one. -/
def launch (fuel : ℕ) (m : Allocations) (p : Parameters) : Option (Option (List ZString)) :=
  (serverFactoryInitServerInfo fuel p).bind fun
    | none => some none
    | some info => (serverCreateProcess m info zoneServerExecutableName).map some

/-! ### The process -/

def atoi (s : ZString) : Int32 := Int32.ofInt (strtol 10 s.chars)

/-- `main` goes no further without arguments and for a type that is not a server's, and otherwise
it creates a server. -/
inductive Main
  | exit
  | unknown
  | server (p : Parameters)

def serverTypeOfCode (code : Int32) : Option ServerType :=
  if code = 1 then some .barrack
  else if code = 2 then some .social
  else if code = 3 then some .zone
  else none

/-- An argument that is missing is the null pointer behind the others, or is behind the array. -/
def zoneServerMain : List ZString → Option Main
  | [] | [_] => some .exit
  | _ :: routerId :: routerIp :: port :: workersCount :: globalServerIp :: globalServerPort ::
      sqlHostname :: sqlUsername :: sqlPassword :: sqlDatabase :: redisHostname :: redisPort ::
      serverType :: output :: _ =>
    match serverTypeOfCode (atoi serverType) with
    | none => some .unknown
    | some serverType => some (.server {
        serverType
        routerId := (atoi routerId).toUInt32.toUInt16
        routerIp
        routerPort := atoi port
        workersCount := (atoi workersCount).toUInt32.toUInt16.toUInt32.toInt32
        output
        globalServerIp
        globalServerPort := atoi globalServerPort
        sqlHostname
        sqlUsername
        sqlPassword
        sqlDatabase
        redisHostname
        redisPort := atoi redisPort
        disconnectHandler := some serverType })
  | _ => none

/-- The parameters with the handler of disconnections of the server's type. -/
def Parameters.inherited (p : Parameters) : Parameters :=
  { p with disconnectHandler := some p.serverType }

/-- A process is started that creates a server with these parameters. -/
def Launches (fuel : ℕ) (m : Allocations) (p : Parameters) (argv : List ZString) : Prop :=
  launch fuel m p = some (some argv) ∧ zoneServerMain argv = some (.server p.inherited)

/-! ### The words of the command line -/

def decimalString (z : ℤ) : ZString := ⟨decimal z, notMem_decimal (by decide) (by decide) z⟩

/-- What is printed into the command line, without the spaces. -/
def argumentList (p : Parameters) : List ZString :=
  [⟨zoneServerExecutableName, by decide⟩, decimalString p.routerId.toNat, p.routerIp,
    decimalString p.routerPort.toInt, decimalString p.workersCount.toInt, p.globalServerIp,
    decimalString p.globalServerPort.toInt, p.sqlHostname, p.sqlUsername, p.sqlPassword,
    p.sqlDatabase, p.redisHostname, decimalString p.redisPort.toInt,
    decimalString (serverTypeCode p.serverType).toInt, p.output]

/-- The command line that starts a server of these parameters. -/
def commandText (p : Parameters) : Text :=
  List.intercalate [32] ((argumentList p).map ZString.chars)

@[simp] theorem convert_int (i : Int32) : convert .d (intArg i) = some (decimal i.toInt) := by
  simp [intArg, convert]

@[simp] theorem convert_routerId (n : UInt16) :
    convert .d (.word n.toUInt64) = some (decimal n.toNat) := by
  have hn := n.toNat_lt
  have hint : n.toUInt64.toUInt32.toInt32.toInt = (n.toNat : ℤ).bmod (2 ^ 32) := by
    rw [← Int32.toInt_toBitVec, UInt32.toBitVec_toInt32, BitVec.toInt_eq_toNat_bmod]
    simp
  rw [convert, hint, Int.bmod_eq_of_le (by omega) (by omega)]

theorem commandLine_eq (p : Parameters) :
    commandLine p.serverInfo (p.workerInfo 0) zoneServerExecutableName = some (commandText p) := by
  have hfront : pieces (text "%s %d %s %d") = some [.conv .s, .text [32], .conv .d, .text [32],
    .conv .s, .text [32], .conv .d] := by rfl
  have hrest : pieces (text "%s %d %s %d %s %s %s %s %s %d %d %s") = some [.conv .s, .text [32],
    .conv .d, .text [32], .conv .s, .text [32], .conv .d, .text [32], .conv .s, .text [32],
    .conv .s, .text [32], .conv .s, .text [32], .conv .s, .text [32], .conv .s, .text [32],
    .conv .d, .text [32], .conv .d, .text [32], .conv .s] := by rfl
  rw [commandLine, zsysSprintf, hfront]
  simp [zsysSprintf, hrest, printf, stringArg, commandText, argumentList, decimalString,
    Parameters.serverInfo, Parameters.routerInfo, Parameters.workerInfo, Parameters.sqlInfo,
    Parameters.redisInfo]

theorem words_decimal (z : ℤ) : words 32 (decimalString z).chars = [(decimalString z).chars] :=
  words_of_notMem (decimal_ne_nil z) (notMem_decimal (by decide) (by decide) z)

theorem zero_notMem_commandText (p : Parameters) : 0 ∉ commandText p := by
  rw [commandText]
  generalize argumentList p = l
  induction l with
  | nil => simp
  | cons s l ih =>
    cases l with
    | nil => simpa using s.zero_notMem
    | cons t l =>
      rw [List.map_cons, List.map_cons, List.intercalate_cons_cons]
      simpa [s.zero_notMem] using ih

theorem zstring_chars {chars : Text} (h : 0 ∉ chars) : zstring (chars ++ [0]) 0 = some ⟨chars, h⟩ := by
  have hchars : ((chars ++ [0]).drop 0).takeWhile (· != 0) = chars := takeWhile_terminated h
  rw [zstring, if_pos (by simp)]
  simp only [hchars]

/-! ### Reading the words -/

theorem arguments_entries {m : Allocations} {k : ℕ} {ws : List Text} {argv : List ZString}
    (hws : ∀ w ∈ ws, 0 ∉ w) (h : arguments (entries m k ws ++ [.null]) = some argv) :
    argv.map ZString.chars <+: ws ∧ ∀ n < argv.length, m.succeeds (2 + (k + n)) := by
  induction ws generalizing k argv with
  | nil =>
    cases h
    simp
  | cons w ws ih =>
    have hw := List.forall_mem_cons.mp hws
    rw [entries_cons, List.cons_append] at h
    split at h
    case isFalse =>
      cases h
      simp
    case isTrue hmemory =>
      rw [arguments, zstring_chars hw.1, Option.bind_some, Option.map_eq_some_iff] at h
      obtain ⟨argv, hargv, rfl⟩ := h
      have hrest := ih hw.2 hargv
      constructor
      · simpa using hrest.1
      · intro n hn
        cases n with
        | zero => exact hmemory
        | succ n =>
          have hcopy := hrest.2 n (by simpa using hn)
          rwa [Nat.add_assoc, Nat.add_comm 1 n] at hcopy

theorem arguments_strings (l : List ZString) :
    arguments ((l.map ZString.chars).map .string ++ [.null]) = some l := by
  induction l with
  | nil => rfl
  | cons s l ih =>
    rw [List.map_cons, List.map_cons, List.cons_append, arguments, zstring_chars s.zero_notMem, ih]
    rfl

/-- The texts among the parameters. -/
def Parameters.strings (p : Parameters) : List ZString :=
  [p.routerIp, p.output, p.globalServerIp, p.sqlHostname, p.sqlUsername, p.sqlPassword,
    p.sqlDatabase, p.redisHostname]

theorem serverTypeOfCode_ne_global {code : Int32} {serverType : ServerType}
    (h : serverTypeOfCode code = some serverType) : serverType ≠ .global := by
  rw [serverTypeOfCode] at h
  rintro rfl
  split_ifs at h <;> cases h

theorem of_zoneServerMain {argv : List ZString} {p : Parameters}
    (h : zoneServerMain argv = some (.server p)) :
    p.serverType ≠ .global ∧ 15 ≤ argv.length ∧ ∀ s ∈ p.strings, s ∈ argv := by
  rw [zoneServerMain.eq_def] at h
  split at h
  · cases h
  · cases h
  · split at h
    · cases h
    next serverType htype =>
      cases h
      exact ⟨serverTypeOfCode_ne_global htype, by simp, by simp [Parameters.strings]⟩
  · cases h

@[simp] theorem atoi_decimal (i : Int32) : atoi (decimalString i.toInt) = i := by
  have hlt := i.toInt_lt
  have hle := i.le_toInt
  rw [atoi, decimalString, strtol_signed (by omega), Int32.ofInt_toInt]

@[simp] theorem atoi_routerId (n : UInt16) :
    (atoi (decimalString n.toNat)).toUInt32.toUInt16 = n := by
  have hn := n.toNat_lt
  rw [atoi, decimalString, strtol_signed (by omega), Int32.ofInt_eq_ofNat, Int32.toUInt32_ofNat',
    ← UInt16.toNat_inj]
  simp

theorem uint16_of_workersCount {i : Int32} (h : 0 ≤ i.toInt) (hlt : i.toInt < 2 ^ 16) :
    i.toUInt32.toUInt16.toUInt32.toInt32 = i := by
  have hnat : i.toUInt32.toNat = i.toInt := by
    rw [Int32.toNat_toUInt32_of_le (by simpa [Int32.le_iff_toInt_le] using h), ← Int32.toNat_toInt,
      Int.toNat_of_nonneg h]
  rw [← Int32.toInt32_toUInt32 i]
  congr 1
  rw [← UInt32.toNat_inj]
  simp
  omega

@[simp] theorem serverTypeOfCode_code {serverType : ServerType} (h : serverType ≠ .global) :
    serverTypeOfCode (serverTypeCode serverType) = some serverType := by
  cases serverType with
  | global => exact absurd rfl h
  | barrack => rfl
  | social => rfl
  | zone => rfl

theorem zoneServerMain_argumentList {p : Parameters} (htype : p.serverType ≠ .global)
    (hpos : 0 ≤ p.workersCount.toInt) (hlt : p.workersCount.toInt < 2 ^ 16) :
    zoneServerMain (argumentList p) = some (.server p.inherited) := by
  simp only [argumentList, zoneServerMain, atoi_decimal, atoi_routerId,
    uint16_of_workersCount hpos hlt, serverTypeOfCode_code htype]
  rfl

/-! ### Launching exactly these parameters -/

/-- A server process can be started with these parameters. -/
structure Launchable (m : Allocations) (p : Parameters) : Prop where
  serverType : p.serverType ≠ .global
  workersCount : 1 ≤ p.workersCount.toInt ∧ p.workersCount.toInt < 2 ^ 16
  word : ∀ s ∈ p.strings, s.chars ≠ [] ∧ 32 ∉ s.chars
  length : (commandText p).length < 2 ^ 31
  memory : ∀ n < 17, m.succeeds n

theorem serverCreateProcess_eq {m : Allocations} {p : Parameters}
    (h : 1 ≤ p.workersCount.toInt) :
    serverCreateProcess m p.serverInfo zoneServerExecutableName =
      (strSplit m ⟨commandText p, zero_notMem_commandText p⟩ 32).bind fun argv =>
        (argv.map arguments).getD (some []) := by
  have hworker : p.serverInfo.workersInfo.head?.join = some (p.workerInfo 0) := by
    obtain ⟨n, hn⟩ : ∃ n, p.workersCount.toInt.toNat = n + 1 :=
      Nat.exists_eq_succ_of_ne_zero (by omega)
    rw [Parameters.serverInfo, hn, List.range_succ_eq_map]
    rfl
  rw [serverCreateProcess, hworker, Option.bind_some, commandLine_eq, Option.bind_some,
    zstring_chars (zero_notMem_commandText p), Option.bind_some]

theorem mem_words {w s : Text} (h : w ∈ words 32 s) : w ≠ [] ∧ 32 ∉ w :=
  ⟨by simpa using (List.mem_filter.mp h).2, notMem_of_mem_words h⟩

theorem words_commandText {p : Parameters} (h : ∀ s ∈ p.strings, s.chars ≠ [] ∧ 32 ∉ s.chars) :
    words 32 (commandText p) = (argumentList p).map ZString.chars := by
  have hword : ∀ s ∈ p.strings, words 32 s.chars = [s.chars] := fun s hs =>
    words_of_notMem (h s hs).1 (h s hs).2
  simp only [Parameters.strings, List.forall_mem_cons] at hword
  obtain ⟨hip, houtput, hglobal, hhost, huser, hpassword, hdatabase, hredis, -⟩ := hword
  have hname : words 32 zoneServerExecutableName = [zoneServerExecutableName] :=
    words_of_notMem (by decide) (by decide)
  rw [commandText, words_intercalate]
  simp only [argumentList, List.map_cons, List.map_nil, List.flatMap_cons, List.flatMap_nil, hname,
    words_decimal, hip, houtput, hglobal, hhost, huser, hpassword, hdatabase, hredis]
  rfl

theorem Launches.launchable {fuel : ℕ} {m : Allocations} {p : Parameters} {argv : List ZString}
    (h : Launches fuel m p argv) : Launchable m p := by
  obtain ⟨hlaunch, hmain⟩ := h
  obtain ⟨htype, hargc, hstrings⟩ := of_zoneServerMain hmain
  obtain ⟨info, hinfo, hcreate⟩ := Option.bind_eq_some_iff.mp hlaunch
  cases info with
  | none => cases hcreate
  | some info =>
    obtain ⟨hpos, hlt, -, rfl⟩ := serverFactoryInitServerInfo_eq_some.mp hinfo
    have hcreate : serverCreateProcess m p.serverInfo zoneServerExecutableName = some argv := by
      simpa using hcreate
    have hworkers : 1 ≤ p.workersCount.toInt := by
      by_contra hnone
      have hzero : p.workersCount.toInt.toNat = 0 := by omega
      rw [serverCreateProcess, Parameters.serverInfo, hzero] at hcreate
      cases hcreate
    rw [serverCreateProcess_eq hworkers] at hcreate
    obtain ⟨array, hsplit, hargv⟩ := Option.bind_eq_some_iff.mp hcreate
    cases array with
    | none =>
      cases hargv
      simp at hargc
    | some array =>
      have hsplittable := splittable_of_strSplit hsplit
      rw [strSplit_eq hsplittable] at hsplit
      cases hsplit
      obtain ⟨hfront, hcopies⟩ := arguments_entries
        (fun w hw hzero => zero_notMem_commandText p ((sublist_of_mem_words hw).subset hzero)) hargv
      have hword : ∀ s ∈ p.strings, s.chars ≠ [] ∧ 32 ∉ s.chars := fun s hs =>
        mem_words (hfront.subset (List.mem_map_of_mem (hstrings s hs)))
      refine ⟨htype, ⟨hworkers, hlt⟩, hword, ?_, fun n hn => ?_⟩
      · have hlength : (commandText p).length ≤ intMax := hsplittable.length_le
        rw [intMax] at hlength
        omega
      · rcases n with _ | _ | n
        · exact hsplittable.array
        · exact hsplittable.buffer
        · have hcopy := hcopies n (by omega)
          rwa [Nat.zero_add, Nat.add_comm] at hcopy

theorem Launchable.launches {fuel : ℕ} {m : Allocations} {p : Parameters} (h : Launchable m p)
    (hfuel : 2 ^ 16 ≤ fuel) : Launches fuel m p (argumentList p) := by
  obtain ⟨htype, ⟨hpos, hlt⟩, hword, hlength, hmemory⟩ := h
  have hwords := words_commandText hword
  have hinfo : serverFactoryInitServerInfo fuel p = some (some p.serverInfo) :=
    serverFactoryInitServerInfo_eq_some.mpr ⟨by omega, hlt, by omega, rfl⟩
  have hspace : 32 ∈ commandText p := by
    rw [commandText, argumentList, List.map_cons, List.map_cons, List.intercalate_cons_cons]
    simp
  have hsplit : SplitsWords m ⟨commandText p, zero_notMem_commandText p⟩ 32 :=
    ⟨.inr hspace, hlength, fun n hn => hmemory n (by rw [hwords] at hn; exact hn)⟩
  have hcreate : serverCreateProcess m p.serverInfo zoneServerExecutableName =
      some (argumentList p) := by
    rw [serverCreateProcess_eq hpos, hsplit.strSplit_eq, hwords]
    exact arguments_strings _
  constructor
  · rw [launch, hinfo]
    simp [hcreate]
  · exact zoneServerMain_argumentList htype (by omega) hlt

/-- A server is launched with its parameters exactly when it has a worker, no text is empty or has
a space in it, and there is memory for the words. -/
theorem launches_iff (m : Allocations) (p : Parameters) :
    (∃ fuel argv, Launches fuel m p argv) ↔ Launchable m p :=
  ⟨fun ⟨_, _, h⟩ => h.launchable, fun h => ⟨2 ^ 16, _, h.launches le_rfl⟩⟩

end R1Emu.Startup

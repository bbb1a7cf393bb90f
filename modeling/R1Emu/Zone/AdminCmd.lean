import R1Emu.Lib.CFormat
import R1Emu.Utils.StrSplit

/-!
# Admin commands

A command is a word and what follows it. The word is cut off by `strtok`, the rest is taken to
start one character behind as many characters as the word has; some handlers split it into words
again, others read numbers from it, with a `long` of 64 bits as on Linux.
-/
namespace R1Emu.AdminCmd
open R1Emu.Lib.Buffer R1Emu.Lib.CFormat R1Emu.Lib.Words R1Emu.Utils

def space : UInt8 := 32

/-! ### The table of commands -/

inductive AdminCommand
  | spawnPc
  | jump
  | addItem
  | addSkill
  | test
  | where_
  | changeCamera
  | setStamina
  | setSP
  | setLevel
  | setJobPoints
  | setSpeed
  deriving DecidableEq

def adminCommands : List (Text × AdminCommand) :=
  [(text "spawn", .spawnPc), (text "jump", .jump), (text "additem", .addItem),
    (text "addskill", .addSkill), (text "test", .test), (text "where", .where_),
    (text "changeCamera", .changeCamera), (text "setStamina", .setStamina), (text "setSP", .setSP),
    (text "setLevel", .setLevel), (text "setJobPoints", .setJobPoints),
    (text "setSpeed", .setSpeed)]

/-! ### What the handlers do -/

/-- A coordinate that is given, or that of the commander. -/
inductive Coordinate
  | given (bits : UInt32)
  | current
  deriving DecidableEq

/-- A message in the log or in the chat, or a change with its packet. Floats are their bits. -/
inductive Effect
  | info (message : String)
  | chat (message : String)
  | spawnPc
  | testPacket
  | position
  | moveSpeed (speed : ℤ)
  | addItem (itemId amount : UInt32)
  | addSkill (skillId level : UInt32)
  | setPos (x y z : UInt32)
  | changeCamera (mode : ℕ) (x y z : Coordinate) (fspd ispd : UInt32)
  | stamina (stamina : UInt32)
  | sp (sp : UInt16)
  | level (level : UInt32)
  | jobPoints (jobId points : UInt16)

/-- The messages are for commands that are refused. -/
def Effect.refuses : Effect → Bool
  | .info _ => true
  | .chat _ => true
  | _ => false

/-- What the loop over the arguments finds, and the arguments that are read in their order. -/
structure ArgumentLoop where
  argc : ℕ
  arguments : List Pointer
  read : List ℕ

structure Outcome where
  effect : Effect
  loop : Option ArgumentLoop

/-! ### Numbers -/

/-- `strtol(args, &args, 10)`: the number and where it ends. -/
def strtolAt (buffer : List UInt8) (args : ℕ) : Option (ℤ × ℕ) :=
  (zstring buffer args).map fun s => (strtol 10 s.chars, args + numberLength s.chars)

def atoi (s : Text) : ℤ := (Int32.ofInt (strtol 10 s)).toInt

def adminCmdSetSpeed (buffer : List UInt8) (args : ℕ) : Option Outcome :=
  (strtolAt buffer args).map fun r => ⟨.moveSpeed (Int32.ofInt r.1).toInt, none⟩

/-- Two numbers with a character between them. -/
def twoNumbers (buffer : List UInt8) (args : ℕ) : Option (UInt32 × UInt32) :=
  (strtolAt buffer args).bind fun r =>
    (strtolAt buffer (r.2 + 1)).map fun r' => (UInt32.ofInt r.1, UInt32.ofInt r'.1)

def adminCmdAddItem (buffer : List UInt8) (args : ℕ) : Option Outcome :=
  (twoNumbers buffer args).map fun r =>
    ⟨.addItem r.1 (if r.2 = 0 then 1 else r.2), none⟩

def adminCmdAddSkill (buffer : List UInt8) (args : ℕ) : Option Outcome :=
  (twoNumbers buffer args).map fun r =>
    ⟨.addSkill (if r.1 = 0 then 40001 else r.1) (if r.2 = 0 then 1 else r.2), none⟩

/-! ### Arguments -/

/-- `while (arg[++argc] != NULL);` -/
def countArguments : List Pointer → ℕ → Option ℕ
  | [], _ => none
  | .null :: _, argc => some argc
  | _ :: arg, argc => countArguments arg (argc + 1)

/-- The string that an argument points to. -/
def argument (arg : List Pointer) (i : ℕ) : Option Text :=
  arg[i]?.bind fun p =>
    match p with
    | .string s => some s
    | _ => none

/-- Split the rest of the command and count its words, where it has any characters. -/
def withArguments (m : Allocations) (buffer : List UInt8) (args : ℕ) (empty : Effect)
    (handle : (argc : ℕ) → (arg : List Pointer) → Option Outcome) : Option Outcome :=
  (zstring buffer args).bind fun s =>
    if s.chars = [] then some ⟨empty, none⟩
    else
      (strSplit m s space).bind fun arg =>
        arg.bind fun arg => (countArguments (arg.drop 1) 1).bind fun argc => handle argc arg

/-- A handler that takes exactly `n` arguments. -/
def exactArguments (m : Allocations) (buffer : List UInt8) (args n : ℕ) (empty wrong : String)
    (effect : List Text → Effect) : Option Outcome :=
  withArguments m buffer args (.info empty) fun argc arg =>
    if argc ≠ n then some ⟨.info wrong, some ⟨argc, arg.take argc, []⟩⟩
    else ((List.range n).mapM (argument arg)).map fun texts =>
      ⟨effect texts, some ⟨argc, arg.take argc, List.range n⟩⟩

section Handlers

variable (atof : Text → UInt32) (m : Allocations) (buffer : List UInt8) (args : ℕ)

def adminCmdJump : Option Outcome :=
  exactArguments m buffer args 3 "Jump without argument!" "Wrong number of argument, must be 3."
    fun arg => .setPos (atof (arg.getD 0 [])) (atof (arg.getD 1 [])) (atof (arg.getD 2 []))

def adminCmdSetStamina : Option Outcome :=
  exactArguments m buffer args 1 "Set stamina needs a argument!"
    "Wrong number of arguments, must be 1."
    fun arg => .stamina (UInt32.ofInt (atoi (arg.getD 0 []) * 1000))

def adminCmdSetSP : Option Outcome :=
  exactArguments m buffer args 1 "Set SP needs a argument!" "Wrong number of arguments, must be 1."
    fun arg => .sp (UInt16.ofInt (atoi (arg.getD 0 [])))

def adminCmdSetLevel : Option Outcome :=
  exactArguments m buffer args 1 "Set level needs a argument!"
    "Wrong number of arguments, must be 1."
    fun arg => .level (UInt32.ofInt (atoi (arg.getD 0 [])))

def adminCmdSetJobPoints : Option Outcome :=
  exactArguments m buffer args 2 "Set job points needs a argument!"
    "Wrong number of arguments, must be 2."
    fun arg => .jobPoints (UInt16.ofInt (atoi (arg.getD 0 []))) (UInt16.ofInt (atoi (arg.getD 1 [])))

/-- The letter c stands for the commander's own coordinate. -/
def coordinate (s : Text) : Coordinate := if s = text "c" then .current else .given (atof s)

/-- The coordinates are read before the number of arguments is checked. -/
def adminCmdChangeCamera : Option Outcome :=
  withArguments m buffer args (.changeCamera 0 (.given 0) (.given 0) (.given 0) 0 0)
    fun argc arg =>
      ((List.range (if 3 ≤ argc then 3 else 0)).mapM (argument arg)).bind fun pos =>
        let x := coordinate atof (pos.getD 0 [])
        let y := coordinate atof (pos.getD 1 [])
        let z := coordinate atof (pos.getD 2 [])
        if argc = 3 then
          some ⟨.changeCamera 1 x y z 0x41200000 0x3f333333,
            some ⟨argc, arg.take argc, List.range 3⟩⟩
        else if argc = 5 then
          (argument arg 3).bind fun fspd => (argument arg 4).map fun ispd =>
            ⟨.changeCamera 1 x y z (atof fspd) (atof ispd),
              some ⟨argc, arg.take argc, List.range 5⟩⟩
        else
          some ⟨.chat "Bad usage /changeCamera <x> <y> <z> \x7b<fspd> <ispd>\x7d",
            some ⟨argc, arg.take argc, List.range (if 3 ≤ argc then 3 else 0)⟩⟩

/-! ### One command -/

def handler : AdminCommand → Option Outcome
  | .spawnPc => some ⟨.spawnPc, none⟩
  | .jump => adminCmdJump atof m buffer args
  | .addItem => adminCmdAddItem buffer args
  | .addSkill => adminCmdAddSkill buffer args
  | .test => some ⟨.testPacket, none⟩
  | .where_ => some ⟨.position, none⟩
  | .changeCamera => adminCmdChangeCamera atof m buffer args
  | .setStamina => adminCmdSetStamina m buffer args
  | .setSP => adminCmdSetSP m buffer args
  | .setLevel => adminCmdSetLevel m buffer args
  | .setJobPoints => adminCmdSetJobPoints m buffer args
  | .setSpeed => adminCmdSetSpeed buffer args

end Handlers

/-- The first word of a text. -/
def firstWord (s : Text) : Text := firstPiece space (s.dropWhile (· == space))

/-- The separator behind the first word and everything behind it. -/
def behindWord (s : Text) : Text := afterPiece space (s.dropWhile (· == space))

/-- How many spaces are in front of the first word. -/
def leading (s : Text) : ℕ := (s.takeWhile (· == space)).length

/-- `strtok(command, " ")`: the first word, and the array with a terminator behind it. -/
def strtok (command : Text) : Option (Text × List UInt8) :=
  if firstWord command = [] then none
  else some (firstWord command,
    if behindWord command = [] then command ++ [0]
    else (command ++ [0]).set (leading command + (firstWord command).length) 0)

/-- What becomes of a command: no word, no handler, or the text that the handler is given (where
the pointer is in the array) and what the handler does. -/
inductive Processed
  | unreadable
  | unknown (commandName : Text)
  | handled (command : AdminCommand) (args : Option Text) (outcome : Outcome)

def adminCmdProcess (atof : Text → UInt32) (m : Allocations) (command : ZString) :
    Option Processed :=
  match strtok command.chars with
  | none => some .unreadable
  | some (commandName, buffer) =>
    match adminCommands.lookup commandName with
    | none => some (.unknown commandName)
    | some c =>
      let args := commandName.length + 1
      (handler atof m buffer args c).map (.handled c ((zstring buffer args).map ZString.chars))

end R1Emu.AdminCmd

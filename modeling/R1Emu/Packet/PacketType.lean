import Mathlib.Init
import Mathlib.Data.Nat.Notation

/-!
# Packet types

The types of the packets that have a handler, with the ids and the sizes of the table of
packets. The size 0 stands for a size that varies.
-/
namespace R1Emu.Packet

inductive PacketType
  | cbLogin
  | cbLoginByPassport
  | cbStartBarrack
  | cbCurrentBarrack
  | cbBarracknameChange
  | cbCommanderCreate
  | cbCommanderDestroy
  | cbCommanderMove
  | cbStartGame
  | cbLogout
  | cbCheckClientIntegrity
  | czConnect
  | czGameReady
  | czJump
  | czOnAir
  | czOnGround
  | czKeyboardMove
  | czMoveStop
  | czMovementInfo
  | czCampinfo
  | czQuickslotList
  | czChangeConfig
  | czLogout
  | czItemUse
  | czINeedParty
  | czSkillGround
  | czRestSit
  | czChat
  | czChatLog
  | czHeadRotate
  | czRotate
  | czPose
  | czDashrun
  | czItemDelete
  | czSwapEtcInvChangeIndex
  | czReqNormalTxNumarg
  | czDynamicCastingStart
  deriving DecidableEq, Repr

/-- The id and the size. -/
def PacketType.entry : PacketType → ℕ × ℕ
  | .cbLogin => (3, 66)
  | .cbLoginByPassport => (4, 1052)
  | .cbStartBarrack => (6, 11)
  | .cbCurrentBarrack => (78, 39)
  | .cbBarracknameChange => (11, 74)
  | .cbCommanderCreate => (7, 92)
  | .cbCommanderDestroy => (8, 11)
  | .cbCommanderMove => (12, 31)
  | .cbStartGame => (10, 13)
  | .cbLogout => (5, 10)
  | .cbCheckClientIntegrity => (9, 74)
  | .czConnect => (3001, 1164)
  | .czGameReady => (3006, 10)
  | .czJump => (3168, 11)
  | .czOnAir => (3174, 10)
  | .czOnGround => (3175, 10)
  | .czKeyboardMove => (3166, 41)
  | .czMoveStop => (3172, 35)
  | .czMovementInfo => (3176, 23)
  | .czCampinfo => (3246, 18)
  | .czQuickslotList => (3361, 0)
  | .czChangeConfig => (3347, 18)
  | .czLogout => (3008, 11)
  | .czItemUse => (3192, 22)
  | .czINeedParty => (3585, 23)
  | .czSkillGround => (3179, 61)
  | .czRestSit => (3173, 10)
  | .czChat => (3187, 0)
  | .czChatLog => (3188, 0)
  | .czHeadRotate => (3184, 18)
  | .czRotate => (3183, 18)
  | .czPose => (3186, 34)
  | .czDashrun => (3169, 11)
  | .czItemDelete => (3191, 0)
  | .czSwapEtcInvChangeIndex => (3384, 35)
  | .czReqNormalTxNumarg => (3305, 0)
  | .czDynamicCastingStart => (3338, 23)

def PacketType.id (type : PacketType) : ℕ := type.entry.1

def PacketType.size (type : PacketType) : ℕ := type.entry.2

end R1Emu.Packet

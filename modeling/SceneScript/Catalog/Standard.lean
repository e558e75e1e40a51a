import SceneScript.Catalog.Basic

/-! # The standard catalog

The stock tables. Slot `n` of every table holds the entry of byte code `n`. -/

namespace SceneScript.Catalog

def standardLife : Array Opcode := #[
  .engine 0x00 "END" .finish [],
  .engine 0x01 "NOP" .nop [],
  (Opcode.engine 0x02 "SNIF" .snif [.jump]).conditional,
  .engine 0x03 "OFFSET" .offset [.jump],
  (Opcode.engine 0x04 "NEVERIF" .neverIf [.jump]).conditional,
  .engine 0x05 "UNKNOWN(0x05)" .nop [],
  .engine 0x06 "UNKNOWN(0x06)" .nop [],
  .engine 0x07 "UNKNOWN(0x07)" .nop [],
  .engine 0x08 "UNKNOWN(0x08)" .nop [],
  .engine 0x09 "UNKNOWN(0x09)" .nop [],
  .game 0x0A "PALETTE" [.u8],
  .engine 0x0B "RETURN" .ret [],
  (Opcode.engine 0x0C "IF" .ifThen [.jump]).conditional,
  (Opcode.engine 0x0D "SWIF" .swif [.jump]).conditional.withCallState,
  (Opcode.engine 0x0E "ONEIF" .oneIf [.jump]).conditional.withCallState,
  .engine 0x0F "ELSE" .elseThen [.jump],
  .engine 0x10 "ENDIF" .endIf [],
  .game 0x11 "BODY" [.u8],
  .game 0x12 "BODY_OBJ" [.actor, .u8],
  .game 0x13 "ANIM" [.u16],
  .game 0x14 "ANIM_OBJ" [.actor, .u16],
  .game 0x15 "SET_CAMERA" [.u8, .u8],
  .game 0x16 "CAMERA_CENTER" [.u8],
  .engine 0x17 "SET_TRACK" .setTrack [.u16],
  .engine 0x18 "SET_TRACK_OBJ" .setTrackObj [.actor, .u16],
  (Opcode.game 0x19 "MESSAGE" [.u16]).withCallState,
  .game 0x1A "CAN_FALL" [.u8],
  .engine 0x1B "SET_DIRMODE" .setDirMode [.u8],
  .engine 0x1C "SET_DIRMODE_OBJ" .setDirModeObj [.actor, .u8],
  .game 0x1D "CAM_FOLLOW" [.actor],
  .game 0x1E "SET_HERO_BEHAVIOUR" [.u8],
  .game 0x1F "SET_VAR_CUBE" [.u8, .u8],
  .engine 0x20 "BEHAVIOUR" .behaviour [.label],
  .engine 0x21 "SET_BEHAVIOUR" .setBehaviour [.offset],
  .engine 0x22 "SET_BEHAVIOUR_OBJ" .setBehaviourObj [.actor, .u16],
  .engine 0x23 "END_BEHAVIOUR" .endBehaviour [],
  .game 0x24 "SET_VAR_GAME" [.u8, .u16],
  .game 0x25 "KILL_OBJ" [.actor],
  .game 0x26 "SUICIDE" [],
  .game 0x27 "USE_ONE_LITTLE_KEY" [],
  .game 0x28 "SUB_MONEY" [.i16],
  .engine 0x29 "END_LIFE" .endLife [],
  .engine 0x2A "STOP_CURRENT_TRACK" .stopCurrentTrack [],
  .engine 0x2B "RESTORE_LAST_TRACK" .restoreLastTrack [],
  (Opcode.game 0x2C "MESSAGE_OBJ" [.actor, .u16]).withCallState,
  .game 0x2D "INC_CHAPTER" [],
  (Opcode.game 0x2E "FOUND_OBJECT" [.u8]).withCallState,
  .game 0x2F "SET_DOOR_LEFT" [.i16],
  .game 0x30 "SET_DOOR_RIGHT" [.i16],
  .game 0x31 "SET_DOOR_UP" [.i16],
  .game 0x32 "SET_DOOR_DOWN" [.i16],
  .game 0x33 "GIVE_BONUS" [.u8],
  .game 0x34 "CHANGE_CUBE" [.u8],
  .game 0x35 "OBJ_COL" [.u8],
  .game 0x36 "BRICK_COL" [.u8],
  (Opcode.engine 0x37 "OR_IF" .orIf [.jump]).conditional.asPrecondition,
  .game 0x38 "INVISIBLE" [.u8],
  .game 0x39 "SHADOW_OBJ" [.actor, .u8],
  .game 0x3A "POS_POINT" [.point],
  .game 0x3B "SET_MAGIC_LEVEL" [.u8],
  .game 0x3C "SUB_MAGIC_POINT" [.u8],
  .game 0x3D "SET_LIFE_POINT_OBJ" [.actor, .u8],
  .game 0x3E "SUB_LIFE_POINT_OBJ" [.actor, .u8],
  .game 0x3F "HIT" [.actor, .u8],
  (Opcode.game 0x40 "PLAY_VIDEO" [.text]).withCallState,
  .game 0x41 "ECLAIR" [.u8],
  .game 0x42 "INC_CLOVER_BOX" [],
  .game 0x43 "SET_USED_INVENTORY" [.u8],
  .game 0x44 "ADD_CHOICE" [.u16],
  (Opcode.game 0x45 "ASK_CHOICE" [.u16]).withCallState,
  .game 0x46 "INIT_BUGGY" [.u8],
  .game 0x47 "MEMO_SLATE" [.u8],
  .game 0x48 "SET_HOLO_POS" [.u8],
  .game 0x49 "CLR_HOLO_POS" [.u8],
  .game 0x4A "ADD_FUEL" [.u8],
  .game 0x4B "SUB_FUEL" [.u8],
  .game 0x4C "SET_FRAGMENT" [.u8, .u8],
  .game 0x4D "SET_TELEPORT_ZONE" [.u8, .u8],
  (Opcode.game 0x4E "MESSAGE_ZOE" [.u16]).withCallState,
  .game 0x4F "FULL_POINT" [],
  .game 0x50 "BETA" [.i16],
  .game 0x51 "FADE_TO_PAL" [.u8],
  .game 0x52 "ACTION" [],
  .game 0x53 "SET_FRAME" [.u8],
  .game 0x54 "SET_SPRITE" [.u16],
  .game 0x55 "SET_FRAME_3DS" [.u8],
  .game 0x56 "IMPACT_OBJ" [.actor, .u16, .u16],
  .game 0x57 "IMPACT_POINT" [.u8, .u16],
  (Opcode.game 0x58 "ADD_MESSAGE" [.u16]).withCallState,
  .game 0x59 "BALLOON" [.u8],
  .game 0x5A "NO_SHOCK" [.u8],
  (Opcode.game 0x5B "ASK_CHOICE_OBJ" [.actor, .u16]).withCallState,
  .game 0x5C "CINEMA_MODE" [.u8],
  .game 0x5D "SAVE_HERO" [],
  .game 0x5E "RESTORE_HERO" [],
  .game 0x5F "ANIM_SET" [.u16],
  .game 0x60 "RAIN" [.u8],
  .game 0x61 "GAME_OVER" [],
  .game 0x62 "THE_END" [],
  .game 0x63 "CONVEYOR" [.u8, .u8],
  (Opcode.game 0x64 "PLAY_MUSIC" [.u8]).headlessSkip,
  .game 0x65 "TRACK_TO_VAR_GAME" [.u8],
  .game 0x66 "VAR_GAME_TO_TRACK" [.u8],
  .game 0x67 "ANIM_TEXTURE" [.u8],
  .game 0x68 "ADD_MESSAGE_OBJ" [.actor, .u16],
  .game 0x69 "BRUTAL_EXIT" [],
  .game 0x6A "REPLACE" [],
  .game 0x6B "LADDER" [.u8, .u8],
  .game 0x6C "SET_ARMOR" [.u8],
  .game 0x6D "SET_ARMOR_OBJ" [.actor, .u8],
  .game 0x6E "ADD_LIFE_POINT_OBJ" [.actor, .u8],
  .game 0x6F "STATE_INVENTORY" [.u8, .u8],
  (Opcode.engine 0x70 "AND_IF" .andIf [.jump]).conditional.asPrecondition,
  (Opcode.engine 0x71 "SWITCH" .switch []).conditionOnly,
  (Opcode.engine 0x72 "OR_CASE" .orCaseArm [.jump]).withArgsFirst.operatorOnly,
  (Opcode.engine 0x73 "CASE" .caseArm [.jump]).withArgsFirst.operatorOnly,
  .engine 0x74 "DEFAULT" .defaultArm [],
  .engine 0x75 "BREAK" .breakOff [.jump],
  .engine 0x76 "END_SWITCH" .endSwitch [],
  .game 0x77 "SET_SPIKE_ZONE" [.u8, .u8],
  .engine 0x78 "SAVE_BEHAVIOUR" .saveBehaviour [],
  .engine 0x79 "RESTORE_BEHAVIOUR" .restoreBehaviour [],
  (Opcode.game 0x7A "SAMPLE" [.u16]).headlessSkip,
  (Opcode.game 0x7B "SAMPLE_RND" [.u16]).headlessSkip,
  (Opcode.game 0x7C "SAMPLE_ALWAYS" [.u16]).headlessSkip,
  (Opcode.game 0x7D "SAMPLE_STOP" [.u16]).headlessSkip,
  (Opcode.game 0x7E "REPEAT_SAMPLE" [.u16, .u8]).headlessSkip,
  .game 0x7F "BACKGROUND" [.u8],
  .game 0x80 "ADD_VAR_GAME" [.u8, .u16],
  .game 0x81 "SUB_VAR_GAME" [.u8, .u16],
  .game 0x82 "ADD_VAR_CUBE" [.u8, .u8],
  .game 0x83 "SUB_VAR_CUBE" [.u8, .u8],
  .engine 0x84 "UNKNOWN(0x84)" .nop [],
  .game 0x85 "SET_RAIL" [.u8, .u8],
  .game 0x86 "INVERSE_BETA" [],
  .game 0x87 "NO_BODY" [],
  .game 0x88 "ADD_MONEY" [.u16],
  .engine 0x89 "STOP_CURRENT_TRACK_OBJ" .stopCurrentTrackObj [.actor],
  .engine 0x8A "RESTORE_LAST_TRACK_OBJ" .restoreLastTrackObj [.actor],
  .engine 0x8B "SAVE_BEHAVIOUR_OBJ" .saveBehaviourObj [.actor],
  .engine 0x8C "RESTORE_BEHAVIOUR_OBJ" .restoreBehaviourObj [.actor],
  .game 0x8D "SPY" [.u8],
  .game 0x8E "DEBUG" [],
  .game 0x8F "DEBUG_OBJ" [.actor],
  .game 0x90 "POPCORN" [],
  .game 0x91 "FLOW_POINT" [.u8, .u8],
  .game 0x92 "FLOW_OBJ" [.actor, .u8],
  .game 0x93 "SET_ANIM_DIAL" [.u16],
  .game 0x94 "PCX" [.u16],
  .game 0x95 "END_MESSAGE" [],
  .game 0x96 "END_MESSAGE_OBJ" [.actor],
  (Opcode.game 0x97 "PARM_SAMPLE" [.u16, .u8, .u16]).headlessSkip.uncertain,
  (Opcode.game 0x98 "NEW_SAMPLE" [.u16, .u16, .u8, .u16]).headlessSkip,
  .game 0x99 "POS_OBJ_AROUND" [.actor, .u8],
  .game 0x9A "PCX_MESS_OBJ" [.actor, .u16, .u16]]

def standardMoves : Array Opcode := #[
  .engine 0x00 "END" .finish [],
  .engine 0x01 "NOP" .nop [],
  .game 0x02 "BODY" [.u8],
  .game 0x03 "ANIM" [.u16],
  .game 0x04 "GOTO_POINT" [.point],
  .game 0x05 "WAIT_ANIM" [],
  .game 0x06 "LOOP" [],
  .game 0x07 "ANGLE" [.i16],
  .game 0x08 "POS_POINT" [.point],
  .engine 0x09 "TRACK" .track [.label],
  .engine 0x0A "GOTO" .goto [.offset],
  .engine 0x0B "STOP" .halt [],
  .game 0x0C "GOTO_SYM_POINT" [.point],
  .game 0x0D "WAIT_NUM_ANIM" [.u8, .u8],
  (Opcode.game 0x0E "SAMPLE" [.u16]).headlessSkip,
  .game 0x0F "GOTO_POINT_3D" [.point],
  .game 0x10 "SPEED" [.u16],
  .game 0x11 "BACKGROUND" [.u8],
  (Opcode.engine 0x12 "WAIT_NUM_SECOND" .waitSeconds [.u8, .u32]).withCallState,
  .game 0x13 "NO_BODY" [],
  .game 0x14 "BETA" [.i16],
  .game 0x15 "OPEN_LEFT" [.i16],
  .game 0x16 "OPEN_RIGHT" [.i16],
  .game 0x17 "OPEN_UP" [.i16],
  .game 0x18 "OPEN_DOWN" [.i16],
  .game 0x19 "CLOSE" [],
  .game 0x1A "WAIT_DOOR" [],
  (Opcode.game 0x1B "SAMPLE_RND" [.i16]).headlessSkip,
  (Opcode.game 0x1C "SAMPLE_ALWAYS" [.i16]).headlessSkip,
  (Opcode.game 0x1D "SAMPLE_STOP" [.i16]).headlessSkip,
  .game 0x1E "PLAY_VIDEO" [],
  (Opcode.game 0x1F "REPEAT_SAMPLE" [.i16]).headlessSkip,
  (Opcode.game 0x20 "SIMPLE_SAMPLE" [.i16]).headlessSkip,
  .game 0x21 "FACE_HERO" [.u16],
  .game 0x22 "ANGLE_RND" [.i16, .u16],
  .game 0x23 "REPLACE" [],
  (Opcode.engine 0x24 "WAIT_NUM_DSEC" .waitDeciseconds [.u8, .u32]).withCallState,
  .game 0x25 "DO" [],
  .game 0x26 "SPRITE" [.i16],
  (Opcode.game 0x27 "WAIT_NUM_SECOND_RND" [.u8, .u32]).withCallState,
  .game 0x28 "AFF_TIMER" [],
  .game 0x29 "SET_FRAME" [.u8],
  .game 0x2A "SET_FRAME_3DS" [.u8],
  .game 0x2B "SET_START_3DS" [.u8],
  .game 0x2C "SET_END_3DS" [.u8],
  .game 0x2D "START_ANIM_3DS" [.u8],
  .game 0x2E "STOP_ANIM_3DS" [],
  .game 0x2F "WAIT_ANIM_3DS" [],
  .game 0x30 "WAIT_FRAME_3DS" [],
  (Opcode.game 0x31 "WAIT_NUM_DECIMAL_RND" [.u8, .u32]).withCallState,
  .game 0x32 "INTERVAL" [.u16],
  (Opcode.game 0x33 "FREQUENCY" [.u16]).headlessSkip,
  (Opcode.game 0x34 "VOLUME" [.u8]).headlessSkip]

def standardConditions : Array Predicate := #[
  ⟨0x00, "COL", .actor, none, .host⟩,
  ⟨0x01, "COL_OBJ", .actor, some .actor, .host⟩,
  ⟨0x02, "DISTANCE", .u16, some .actor, .host⟩,
  ⟨0x03, "ZONE", .u8, none, .host⟩,
  ⟨0x04, "ZONE_OBJ", .u8, some .actor, .host⟩,
  ⟨0x05, "BODY", .u8, none, .host⟩,
  ⟨0x06, "BODY_OBJ", .u8, some .actor, .host⟩,
  ⟨0x07, "ANIM", .u16, none, .host⟩,
  ⟨0x08, "ANIM_OBJ", .u16, some .actor, .host⟩,
  ⟨0x09, "CURRENT_TRACK", .u8, none, .ownTrack⟩,
  ⟨0x0A, "CURRENT_TRACK_OBJ", .u8, some .actor, .actorTrack⟩,
  ⟨0x0B, "VAR_CUBE", .u8, some .u8, .host⟩,
  ⟨0x0C, "CONE_VIEW", .u16, some .actor, .host⟩,
  ⟨0x0D, "HIT_BY", .actor, none, .host⟩,
  ⟨0x0E, "ACTION", .u8, none, .host⟩,
  ⟨0x0F, "VAR_GAME", .u16, some .u8, .host⟩,
  ⟨0x10, "LIFE_POINT", .u16, none, .host⟩,
  ⟨0x11, "LIFE_POINT_OBJ", .u16, some .actor, .host⟩,
  ⟨0x12, "KEYS", .u8, none, .host⟩,
  ⟨0x13, "MONEY", .u16, none, .host⟩,
  ⟨0x14, "HERO_BEHAVIOUR", .u8, none, .host⟩,
  ⟨0x15, "CHAPTER", .u8, none, .host⟩,
  ⟨0x16, "DISTANCE_3D", .u16, some .actor, .host⟩,
  ⟨0x17, "MAGIC_LEVEL", .u8, none, .host⟩,
  ⟨0x18, "MAGIC_POINTS", .u8, none, .host⟩,
  ⟨0x19, "USING_INVENTORY", .u8, some .u8, .host⟩,
  ⟨0x1A, "CHOICE", .u16, none, .host⟩,
  ⟨0x1B, "FUEL", .u8, none, .host⟩,
  ⟨0x1C, "CARRIED_BY", .actor, none, .host⟩,
  ⟨0x1D, "CDROM", .u8, none, .host⟩,
  ⟨0x1E, "LADDER", .u8, none, .host⟩,
  ⟨0x1F, "RND", .u8, some .u8, .host⟩,
  ⟨0x20, "RAIL", .u8, some .u8, .host⟩,
  ⟨0x21, "BETA", .u16, none, .host⟩,
  ⟨0x22, "BETA_OBJ", .u16, some .actor, .host⟩,
  ⟨0x23, "CARRIED_BY_OBJ", .actor, some .actor, .host⟩,
  ⟨0x24, "ANGLE", .u16, some .actor, .host⟩,
  ⟨0x25, "DISTANCE_MESSAGE", .u16, some .actor, .host⟩,
  ⟨0x26, "HIT_OBJ_BY", .actor, some .actor, .host⟩,
  ⟨0x27, "REAL_ANGLE", .u16, some .actor, .host⟩,
  ⟨0x28, "DEMO", .u8, none, .host⟩,
  ⟨0x29, "COL_DECORS", .u8, none, .host⟩,
  ⟨0x2A, "COL_DECORS_OBJ", .u8, some .actor, .host⟩,
  ⟨0x2B, "PROCESSOR", .u8, none, .host⟩,
  ⟨0x2C, "OBJECT_DISPLAYED", .u8, some .u8, .host⟩,
  ⟨0x2D, "ANGLE_OBJ", .u16, some .actor, .host⟩]

def standardOperators : Array Operator := #[
  ⟨0x00, "==", .eq⟩,
  ⟨0x01, ">", .gt⟩,
  ⟨0x02, "<", .lt⟩,
  ⟨0x03, ">=", .ge⟩,
  ⟨0x04, "<=", .le⟩,
  ⟨0x05, "!=", .ne⟩]

/-- The stock catalog. -/
def standard : Catalog := ⟨standardLife, standardMoves, standardConditions, standardOperators⟩

end SceneScript.Catalog

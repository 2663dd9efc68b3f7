import Ogrt.Client.InitHookSafety

namespace Ogrt
open ByteBuffer Checked

/-- An argument of a program, a string of C. -/
abbrev Argument := {text : GoString // 0 ∉ text}

/-- What the kernel shows of an argument vector in /proc. -/
def cmdlineContent (args : List Argument) : List UInt8 := args.flatMap fun arg => arg.val ++ [0]

/-- The arguments with one space between each two. -/
def joinedArguments (args : List Argument) : GoString := [0x20].intercalate (args.map (·.val))

/-- The buffer can be allocated, and read fills it with as much of the content as it holds. -/
def procCmdline (args : List Argument) (block : Block pathMax) : CmdlineOutcome where
  malloc := some block
  opens := true
  read := some ⟨(cmdlineContent args).take pathMax, List.length_take_le _ _⟩

def spaceForNul (c : UInt8) : UInt8 := if c = 0 then 0x20 else c

theorem spaceForNul_ne_zero (c : UInt8) : spaceForNul c ≠ 0 := by
  unfold spaceForNul
  split
  · decide
  · assumption

theorem map_spaceForNul (arg : Argument) : arg.val.map spaceForNul = arg.val := by
  have same : arg.val.map spaceForNul = arg.val.map id := by
    refine List.map_congr_left fun c member => if_neg fun nul => ?_
    rw [nul] at member
    exact arg.property member
  rw [same, List.map_id]

/-- All but the last NUL of the content become the spaces between the arguments. -/
theorem cmdlineContent_cons (first : Argument) (rest : List Argument) :
    ∃ text, cmdlineContent (first :: rest) = text ++ [0] ∧
      text.map spaceForNul = joinedArguments (first :: rest) := by
  induction rest generalizing first with
  | nil =>
    refine ⟨first.val, ?_, ?_⟩
    · rw [cmdlineContent, List.flatMap_cons, List.flatMap_nil, List.append_nil]
    · rw [map_spaceForNul]
      exact (List.append_nil _).symm
  | cons second rest ih =>
    obtain ⟨text, content, spaces⟩ := ih second
    refine ⟨first.val ++ 0 :: text, ?_, ?_⟩
    · rw [cmdlineContent, List.flatMap_cons]
      show (first.val ++ [0]) ++ cmdlineContent (second :: rest) = _
      rw [content, List.append_assoc, List.append_assoc]
      rfl
    · rw [List.map_append, List.map_cons, map_spaceForNul, spaces]
      rfl

/-- The loop stays within the bytes that were read. -/
theorem nulsToSpaces_store {block bytes : List UInt8} (fits : bytes.length ≤ block.length) :
    nulsToSpaces (store block 0 bytes) ((bytes.length : Int) - 1) =
      store block 0 (nulsToSpaces bytes ((bytes.length : Int) - 1)) := by
  have inside : ((bytes.length : Int) - 1).toNat ≤ bytes.length := by omega
  have stored (data : List UInt8) (size : data.length = bytes.length) :
      store block 0 data = data ++ block.drop bytes.length := by
    rw [store, List.take_zero, List.nil_append, List.drop_zero, overwrite_of_le (by omega), size]
  rw [stored bytes rfl, stored _ (nulsToSpaces_length ..), nulsToSpaces, nulsToSpaces,
    List.take_append_of_le_length inside, List.drop_append_of_le_length inside, List.append_assoc]

/-- With room for the terminator the string ends with the bytes that were read. -/
theorem ogrtGetCmdline_read {block : Block pathMax} {bytes : Bytes} (room : bytes.val.length < pathMax) :
    ogrtGetCmdline ⟨some block, true, some bytes⟩ =
      .ok (some (cString (nulsToSpaces bytes.val ((bytes.val.length : Int) - 1)))) := by
  have size : block.val.length = pathMax := block.property
  have count : (nulsToSpaces bytes.val ((bytes.val.length : Int) - 1)).length = bytes.val.length := nulsToSpaces_length ..
  unfold ogrtGetCmdline
  dsimp only
  rw [if_pos rfl]
  dsimp only
  rw [nulsToSpaces_store (by omega)]
  generalize nulsToSpaces bytes.val ((bytes.val.length : Int) - 1) = spaced at count ⊢
  cases stored : storeWithin (store block.val 0 spaced) bytes.val.length [0] with
  | none =>
    have present : (storeWithin (store block.val 0 spaced) bytes.val.length [0]).isSome :=
      (terminated_isSome ((store_length ..).trans size)).mpr room
    rw [stored] at present
    cases present
  | some terminated =>
    rw [← count] at stored
    have below : spaced.length < block.val.length := by omega
    rw [← cString_terminated below stored]
    rfl

theorem cString_joined (args : List Argument) :
    cString (nulsToSpaces (cmdlineContent args) (((cmdlineContent args).length : Int) - 1)) = joinedArguments args := by
  cases args with
  | nil => rfl
  | cons first rest =>
    obtain ⟨text, content, spaces⟩ := cmdlineContent_cons first rest
    have last : (((text ++ [0]).length : Int) - 1).toNat = text.length := by
      rw [List.length_append, List.length_singleton]
      omega
    have nonzero : ∀ c ∈ text.map spaceForNul, decide (c ≠ 0) = true := by
      intro c member
      obtain ⟨old, _, rfl⟩ := List.mem_map.mp member
      exact decide_eq_true (spaceForNul_ne_zero old)
    rw [content, nulsToSpaces, last, List.take_left, List.drop_left, ← spaces, cString]
    show ((text.map spaceForNul) ++ [0]).takeWhile (· ≠ 0) = _
    rw [List.takeWhile_append_of_pos nonzero]
    exact List.append_nil _

/-- The string is the arguments joined by spaces, cut to the allocation, and every store is
inside of it exactly when read does not fill the buffer. -/
theorem command_line_joined_iff (args : List Argument) (block : Block pathMax) :
    ogrtGetCmdline (procCmdline args block) = .ok (some ((joinedArguments args).take (pathMax - 1))) ↔
      (cmdlineContent args).length < pathMax := by
  constructor
  · intro returned
    obtain ⟨_, bytes, read, room⟩ := ogrtGetCmdline_succeeds.mp ⟨_, returned⟩ block rfl
    cases read
    rw [List.length_take] at room
    omega
  · intro room
    have whole : (cmdlineContent args).take pathMax = cmdlineContent args := List.take_of_length_le room.le
    have read (bytes : Bytes) (same : bytes.val = cmdlineContent args) :
        ogrtGetCmdline ⟨some block, true, some bytes⟩ = .ok (some (joinedArguments args)) := by
      rw [ogrtGetCmdline_read (by rw [same]; exact room), same, cString_joined]
    have uncut : (joinedArguments args).take (pathMax - 1) = joinedArguments args := by
      refine List.take_of_length_le ?_
      rw [← cString_joined]
      refine (List.takeWhile_prefix _).length_le.trans ?_
      rw [nulsToSpaces_length]
      omega
    rw [uncut]
    exact read _ whole

/-- One argument that fills the buffer with its NUL. -/
def longArgument : Argument := ⟨List.replicate 4095 0x61, fun member => by
  have nul := List.eq_of_mem_replicate member
  exact absurd nul (by decide)⟩

/-- The terminator is stored behind the buffer, though the text would have fitted. -/
theorem long_command_line_overruns :
    ¬ ∀ (args : List Argument) (block : Block pathMax),
      ogrtGetCmdline (procCmdline args block) = .ok (some ((joinedArguments args).take (pathMax - 1))) := by
  intro joined
  obtain ⟨_, bytes, read, room⟩ := ogrtGetCmdline_succeeds.mp
    ⟨_, joined [longArgument] ⟨List.replicate pathMax 0, List.length_replicate⟩⟩ _ rfl
  have size : (cmdlineContent [longArgument]).length = pathMax := by
    rw [cmdlineContent, List.flatMap_cons, List.flatMap_nil, List.append_nil, List.length_append, longArgument,
      List.length_replicate]
    rfl
  cases read
  rw [List.length_take, size] at room
  omega

end Ogrt

/- Unit: PscDigpid/Sw/NetconfLines
   layer: result
   source: src/sw/src/sdcard.c (sdcard_netconf)
   digest: Which lines of the configuration file act, and what malformed lines and comments do. -/

import Mathlib.Logic.Nontrivial.Basic
import PscDigpid.Sw.Netconf

set_option autoImplicit false
set_option relaxedAutoImplicit false

namespace PscDigpid.Sw.Netconf

open PscDigpid.Sync
open PscDigpid.Sw.Hwaddr

/-- The words that a command takes. -/
def Command.words : Command → List String
  | .dhcp => ["yes", "no"]
  | .numchans => ["2", "4"]
  | .resolution => ["HS", "MS"]
  | .bandwidth => ["fast", "slow"]
  | .polarity => ["bipolar", "unipolar"]
  | _ => []

/-- An argument as it should be. -/
def Acceptable (world : World) (arg : Option Text) : Command → Prop
  | .addr | .mask | .gw => ∃ word, arg = some word ∧ (world.inetAton word).isSome = true
  | .hwaddr => ∀ word, arg = some word →
      word = "eeprom".toList ∨ ∃ mac : Fin 6 → Byte, Spells word (List.ofFn mac)
  | c => ∀ word, arg = some word → ∃ w ∈ c.words, word = w.toList

/-- The command of a line, if it has one that is known. -/
def commandOf (line : Text) : Option (Command × Option Text) :=
  (parseLine line).bind fun cut => (Command.ofText cut.1).map fun c => (c, cut.2)

/-- A line to be rejected or passed over. -/
def Malformed (world : World) (line : Text) : Prop :=
  ∀ c arg, commandOf line = some (c, arg) → ¬ Acceptable world arg c

/-- A line with an effect: its argument is accepted, or its command does not ask. -/
def Acts (world : World) (line : Text) : Prop :=
  ∃ c arg, commandOf line = some (c, arg) ∧ (Acceptable world arg c ∨ c = .addr)

/-- The network's configuration and the board are the same. -/
def Alike (s s' : State) : Prop := s.conf = s'.conf ∧ s.board = s'.board

section Line

variable {world : World} {line : Text} {arg : Option Text} {c : Command} {s : State}

theorem netconfLine_eq : netconfLine world s line =
    match commandOf line with
    | none => s
    | some (c, arg) => runCommand world arg s c := by
  rw [netconfLine, commandOf]
  cases parseLine line with
  | none => rfl
  | some cut =>
      obtain ⟨cmd, arg⟩ := cut
      cases known : Command.ofText cmd with
      | none => simp [known]
      | some c => simp [known]

/-- No argument has a nul. -/
theorem arg_nul {word : Text} (command : commandOf line = some (c, some word)) :
    '\x00' ∉ word := by
  obtain ⟨⟨cmd, arg⟩, cut, known⟩ := Option.bind_eq_some_iff.1 command
  obtain ⟨_, _, same⟩ := Option.map_eq_some_iff.1 known
  obtain ⟨-, rfl⟩ := Prod.mk.inj same
  rw [parseLine] at cut
  split_ifs at cut
  obtain ⟨-, arg⟩ := Prod.mk.inj (Option.some.inj cut)
  split_ifs at arg
  intro nul
  rw [← Option.some.inj arg] at nul
  have inside := (List.takeWhile_sublist _).subset nul
  have after := (List.dropWhile_sublist _).subset inside
  have rest := (List.dropWhile_sublist _).subset after
  have line := (List.dropWhile_sublist _).subset rest
  have kept := List.all_eq_true.1 List.all_takeWhile _ line
  simp at kept

section Choice

variable {first second : String} {onFirst onSecond : State}

/-- A word that is not one of the two changes nothing. -/
theorem choose_rejected
    (other : ¬ ∀ word, arg = some word → ∃ w ∈ [first, second], word = w.toList) :
    choose arg first second onFirst onSecond s = s := by
  cases arg with
  | none => exact absurd (fun _ none => absurd none nofun) other
  | some word =>
      have apart : ∀ w ∈ [first, second], word ≠ w.toList := by
        intro w listed same
        refine other fun word' here => ⟨w, listed, ?_⟩
        rw [← Option.some.inj here, same]
      rw [choose, if_neg (apart first (by simp)), if_neg (apart second (by simp))]

/-- An argument that is accepted selects one of the two. -/
theorem choose_accepted
    (accepted : ∀ word, arg = some word → ∃ w ∈ [first, second], word = w.toList) :
    (∀ onFirst onSecond s, choose arg first second onFirst onSecond s = onFirst) ∨
      ∀ onFirst onSecond s, choose arg first second onFirst onSecond s = onSecond := by
  cases arg with
  | none => exact .inl fun _ _ _ => rfl
  | some word =>
      by_cases one : word = first.toList
      · exact .inl fun _ _ _ => if_pos one
      · right
        intro onFirst onSecond s
        obtain ⟨w, listed, same⟩ := accepted word rfl
        rw [choose, if_neg one]
        obtain rfl | rfl : w = first ∨ w = second := by simpa using listed
        · exact absurd same one
        · exact if_pos same

end Choice

/-- An address that is not accepted is not stored. -/
theorem sdcardParseInet_rejected
    (rejected : ¬ ∃ word, arg = some word ∧ (world.inetAton word).isSome = true) (out : BitVec 32) :
    sdcardParseInet world arg out = out := by
  cases arg with
  | none => rfl
  | some word =>
      have none : world.inetAton word = none := by
        rw [← Option.not_isSome_iff_eq_none]
        exact fun some => rejected ⟨word, rfl, some⟩
      rw [sdcardParseInet, none]
      rfl

/-- An address that is accepted is stored whatever was there. -/
theorem sdcardParseInet_accepted
    (accepted : ∃ word, arg = some word ∧ (world.inetAton word).isSome = true) :
    ∃ value, ∀ out, sdcardParseInet world arg out = value := by
  obtain ⟨word, rfl, valid⟩ := accepted
  obtain ⟨value, same⟩ := Option.isSome_iff_exists.1 valid
  refine ⟨value, fun out => ?_⟩
  rw [sdcardParseInet, same]
  rfl

theorem setHwaddr_rejected {word : Text} (nul : '\x00' ∉ word) (other : word ≠ "eeprom".toList)
    (rejected : ∀ mac : Fin 6 → Byte, ¬ Spells word (List.ofFn mac)) :
    setHwaddr world (some word) s = s := by
  rw [setHwaddr, if_neg other]
  cases scanned : scanHwaddr word with
  | fault => rfl
  | unchanged => rfl
  | parsed mac => exact absurd ((scanHwaddr_iff nul mac).1 scanned) (rejected mac)

theorem setHwaddr_spelled {word : Text} {mac : Fin 6 → Byte} (nul : '\x00' ∉ word)
    (other : word ≠ "eeprom".toList) (spelled : Spells word (List.ofFn mac)) :
    setHwaddr world (some word) s = { s with conf := { s.conf with hwaddr := mac } } := by
  rw [setHwaddr, if_neg other, (scanHwaddr_iff nul mac).2 spelled]

/-- What is not accepted changes nothing, but for a static address that is implied. -/
theorem runCommand_rejected (nul : ∀ word, arg = some word → '\x00' ∉ word)
    (rejected : ¬ Acceptable world arg c) :
    runCommand world arg s c = if c = .addr then setUseStatic 1 s else s := by
  cases c with
  | addr =>
      rw [if_pos rfl, runCommand, sdcardParseInet_rejected rejected]
      rfl
  | mask =>
      rw [if_neg nofun, runCommand, sdcardParseInet_rejected rejected]
  | gw =>
      rw [if_neg nofun, runCommand, sdcardParseInet_rejected rejected]
  | hwaddr =>
      rw [if_neg nofun, runCommand]
      cases arg with
      | none => exact absurd (fun _ none => absurd none nofun) rejected
      | some word =>
          apply setHwaddr_rejected (nul word rfl)
          · rintro rfl
            exact rejected fun _ same => .inl (Option.some.inj same).symm
          · intro mac spelled
            refine rejected fun _ same => .inr ⟨mac, ?_⟩
            rwa [← Option.some.inj same]
  | _ => exact choose_rejected rejected

theorem choose_cases (arg : Option Text) (first second : String) (onFirst onSecond s : State) :
    choose arg first second onFirst onSecond s = onFirst ∨
      choose arg first second onFirst onSecond s = onSecond ∨
      choose arg first second onFirst onSecond s = s := by
  cases arg with
  | none => exact .inl rfl
  | some word =>
      rw [choose]
      split_ifs
      · exact .inl rfl
      · exact .inr (.inl rfl)
      · exact .inr (.inr rfl)

@[simp] theorem selectResolution_writes (r : BitVec 32) (s : State) :
    (selectResolution r s).board.writes = s.board.writes ++ [(resolutionReg, r)] := by
  rw [selectResolution, mshsSelect]
  dsimp only
  split <;> rfl

@[simp] theorem xilOut32_writes (addr data : BitVec 32) (s : State) :
    (xilOut32 addr data s).board.writes = s.board.writes ++ [(addr, data)] := rfl

/-- Registers are only ever written once more. -/
theorem runCommand_writes (world : World) (arg : Option Text) (c : Command) (s : State) :
    s.board.writes.length ≤ (runCommand world arg s c).board.writes.length := by
  have chosen : ∀ first second onFirst onSecond,
      s.board.writes.length ≤ onFirst.board.writes.length →
      s.board.writes.length ≤ onSecond.board.writes.length →
      s.board.writes.length ≤ (choose arg first second onFirst onSecond s).board.writes.length := by
    intro first second onFirst onSecond one two
    obtain same | same | same := choose_cases arg first second onFirst onSecond s
    · rwa [same]
    · rwa [same]
    · rw [same]
  cases c with
  | dhcp => exact chosen _ _ _ _ le_rfl le_rfl
  | resolution => exact chosen _ _ _ _ (by simp) (by simp)
  | numchans => exact chosen _ _ _ _ (by simp) (by simp)
  | bandwidth => exact chosen _ _ _ _ (by simp) (by simp)
  | polarity => exact chosen _ _ _ _ (by simp) (by simp)
  | addr => exact le_rfl
  | mask => exact le_rfl
  | gw => exact le_rfl
  | hwaddr =>
      cases arg with
      | none => exact le_rfl
      | some word =>
          rw [runCommand, setHwaddr]
          split
          · exact le_rfl
          · cases scanHwaddr word <;> exact le_rfl

/-- A hardware address is taken as it is spelled, and nothing is otherwise. -/
structure HwaddrLaw (world : World) (arg : Text) (s : State) : Prop where
  safe : scanHwaddr arg ≠ .fault
  taken : ∀ mac : Fin 6 → Byte, Spells arg (List.ofFn mac) →
    runCommand world (some arg) s .hwaddr = { s with conf := { s.conf with hwaddr := mac } }
  unchanged : (∀ mac : Fin 6 → Byte, ¬ Spells arg (List.ofFn mac)) →
    runCommand world (some arg) s .hwaddr = s

theorem hwaddr_exact (world : World) (arg : Text) (s : State) (nul : '\x00' ∉ arg)
    (other : arg ≠ "eeprom".toList) : HwaddrLaw world arg s :=
  ⟨scanHwaddr_ne_fault, fun _ spelled => setHwaddr_spelled nul other spelled,
    setHwaddr_rejected nul other⟩

/-- What an effect leaves behind: one more write, or a field with a value of its own. -/
def Marks (f : State → State) : Prop :=
  (∀ s, s.board.writes.length < (f s).board.writes.length) ∨
    ∃ P : NetConfig → Prop, (∀ s, P (f s).conf) ∧ ∃ conf, ¬ P conf

/-- A field that is set marks what is set. -/
theorem marks_field {α : Type} [Nontrivial α] {f : State → State} (field : NetConfig → α)
    (put : α → NetConfig) (law : ∀ a, field (put a) = a) (value : α)
    (set : ∀ s, field (f s).conf = value) : Marks f := by
  obtain ⟨other, apart⟩ := exists_ne value
  refine .inr ⟨fun conf => field conf = value, set, put other, ?_⟩
  dsimp only
  rwa [law]

/-- A command that acts leaves a mark. -/
theorem runCommand_marks (nul : ∀ word, arg = some word → '\x00' ∉ word)
    (acts : Acceptable world arg c ∨ c = .addr) : Marks fun s => runCommand world arg s c := by
  have byte : Nontrivial Byte := ⟨0, 1, by decide⟩
  have word : Nontrivial (BitVec 32) := ⟨0, 1, by decide⟩
  have static : ∀ {f : State → State} (value : Byte), (∀ s, (f s).conf.useStatic = value) →
      Marks f := marks_field NetConfig.useStatic (fun v => ⟨0, 0, 0, v, fun _ => 0⟩) fun _ => rfl
  have address : ∀ {f : State → State} (value : Fin 6 → Byte), (∀ s, (f s).conf.hwaddr = value) →
      Marks f := marks_field NetConfig.hwaddr (fun v => ⟨0, 0, 0, 0, v⟩) fun _ => rfl
  cases c with
  | addr => exact static 1 fun _ => rfl
  | dhcp =>
      obtain first | second := choose_accepted (acts.resolve_right nofun)
      · exact static 0 fun s => by rw [runCommand, first]; rfl
      · exact static 1 fun s => by rw [runCommand, second]; rfl
  | mask =>
      obtain ⟨value, stored⟩ := sdcardParseInet_accepted (acts.resolve_right nofun)
      apply marks_field NetConfig.mask (fun v => ⟨0, v, 0, 0, fun _ => 0⟩) (fun _ => rfl) value
      exact fun s => stored s.conf.mask
  | gw =>
      obtain ⟨value, stored⟩ := sdcardParseInet_accepted (acts.resolve_right nofun)
      apply marks_field NetConfig.gw (fun v => ⟨0, 0, v, 0, fun _ => 0⟩) (fun _ => rfl) value
      exact fun s => stored s.conf.gw
  | hwaddr =>
      have accepted := acts.resolve_right nofun
      cases arg with
      | none => exact address world.macAddress fun _ => rfl
      | some word =>
          by_cases own : word = "eeprom".toList
          · exact address world.macAddress fun s => by rw [runCommand, setHwaddr, if_pos own]
          · obtain ⟨mac, spelled⟩ := (accepted word rfl).resolve_left own
            exact address mac fun s => by
              rw [runCommand, setHwaddr_spelled (nul word rfl) own spelled]
  | _ =>
      left
      intro s
      dsimp only
      obtain first | second := choose_accepted (acts.resolve_right nofun)
      · rw [runCommand, first]
        simp
      · rw [runCommand, second]
        simp

theorem Marks.after {f g : State → State} (marks : Marks g)
    (writes : ∀ s, s.board.writes.length ≤ (f s).board.writes.length) : Marks fun s => g (f s) := by
  obtain more | ⟨P, always, sometimes⟩ := marks
  · exact .inl fun s => (writes s).trans_lt (more (f s))
  · exact .inr ⟨P, fun s => always (f s), sometimes⟩

/-- What leaves a mark is seen from some state. -/
theorem Marks.seen {f : State → State} (marks : Marks f) : ¬ ∀ s, Alike (f s) s := by
  intro alike
  obtain more | ⟨P, always, conf, never⟩ := marks
  · have same := (alike ⟨⟨0, 0, 0, 0, fun _ => 0⟩, blankBoard, 0⟩).2
    have grown := more ⟨⟨0, 0, 0, 0, fun _ => 0⟩, blankBoard, 0⟩
    rw [same] at grown
    exact Nat.lt_irrefl _ grown
  · have same := (alike ⟨conf, blankBoard, 0⟩).1
    have left := always ⟨conf, blankBoard, 0⟩
    rw [same] at left
    exact never left

/-- The arguments of the commands that are found. -/
theorem command_nul (command : commandOf line = some (c, arg)) :
    ∀ word, arg = some word → '\x00' ∉ word := by
  rintro word rfl
  exact arg_nul command

theorem netconfLine_malformed (malformed : Malformed world line) : netconfLine world s line =
    if (commandOf line).map Prod.fst = some .addr then setUseStatic 1 s else s := by
  rw [netconfLine_eq]
  cases command : commandOf line with
  | none => rfl
  | some found =>
      obtain ⟨c, arg⟩ := found
      dsimp only
      rw [runCommand_rejected (command_nul command) (malformed c arg command)]
      simp only [Option.map_some, Option.some.injEq]

theorem netconfLine_idle (idle : ¬ Acts world line) : netconfLine world s line = s := by
  have malformed : Malformed world line := fun c arg command accepted =>
    idle ⟨c, arg, command, .inl accepted⟩
  rw [netconfLine_malformed malformed, if_neg]
  intro addr
  obtain ⟨⟨_, arg⟩, command, rfl⟩ := Option.map_eq_some_iff.1 addr
  exact idle ⟨.addr, arg, command, .inr rfl⟩

theorem netconfLine_writes (world : World) (line : Text) (s : State) :
    s.board.writes.length ≤ (netconfLine world s line).board.writes.length := by
  rw [netconfLine_eq]
  cases commandOf line with
  | none => exact le_rfl
  | some found => exact runCommand_writes world found.2 found.1 s

theorem netconfLine_marks (acts : Acts world line) : Marks fun s => netconfLine world s line := by
  obtain ⟨c, arg, command, effective⟩ := acts
  simp only [netconfLine_eq, command]
  exact runCommand_marks (command_nul command) effective

end Line

section File

variable {world : World} {file : Text} {s : State}

theorem netconf_idle {ls : List Text} (idle : ∀ line ∈ ls, ¬ Acts world line) :
    ls.foldl (netconfLine world) s = s := by
  induction ls generalizing s with
  | nil => rfl
  | cons line ls ih =>
      rw [List.forall_mem_cons] at idle
      rw [List.foldl_cons, netconfLine_idle idle.1, ih idle.2]

/-- The last line that acts leaves its mark to the end. -/
theorem netconf_marks {ls : List Text} (acts : ∃ line ∈ ls, Acts world line) :
    Marks fun s => ls.foldl (netconfLine world) s := by
  induction ls with
  | nil => simp at acts
  | cons line ls ih =>
      simp only [List.foldl_cons]
      by_cases later : ∃ line ∈ ls, Acts world line
      · exact (ih later).after fun s => netconfLine_writes world line s
      · rw [List.exists_mem_cons_iff] at acts
        have first := netconfLine_marks (acts.resolve_right later)
        have rest : ∀ s, ls.foldl (netconfLine world) s = s := fun s =>
          netconf_idle fun line listed acts => later ⟨line, listed, acts⟩
        simp only [rest]
        exact first

/-- A text changes nothing, from any state, exactly when no line of it acts. -/
theorem netconf_alike_iff :
    (∀ s, Alike (sdcardNetconf world file s) s) ↔ ∀ line ∈ lines file, ¬ Acts world line := by
  constructor
  · intro alike line listed acts
    exact (netconf_marks ⟨line, listed, acts⟩).seen alike
  · intro idle s
    rw [sdcardNetconf, netconf_idle idle]
    exact ⟨rfl, rfl⟩

/-- Texts that end with a newline are processed one after the other. -/
theorem sdcardNetconf_append {pre : Text} (whole : Whole (fun c => c == '\n') pre) (post : Text) :
    sdcardNetconf world (pre ++ post) s = sdcardNetconf world post (sdcardNetconf world pre s) := by
  have cut : lines (pre ++ post) = lines pre ++ lines post := pieces_append whole post
  rw [sdcardNetconf, cut, List.foldl_append]
  rfl

/-- A line of at most 63 characters is read in one piece. -/
theorem lines_single {text : Text} (some : text ≠ []) (short : text.length ≤ 63)
    (inside : '\n' ∉ text.dropLast) : lines text = [text] := by
  cases text with
  | nil => exact absurd rfl some
  | cons c text =>
      apply pieces_single (Nat.le_of_succ_le_succ short)
      intro c' before
      refine beq_eq_false_iff_ne.2 ?_
      rintro rfl
      exact inside before

/-- The first character of a line that is not blank is a number sign. -/
def Comment (text : Text) : Prop := (text.dropWhile lwipIsspace).head? = some '#'

instance (text : Text) : Decidable (Comment text) := inferInstanceAs (Decidable (_ = _))

/-- A line at any place of a file: its effect is its own, and a comment can as well be left
out. -/
structure LineLaw (world : World) (text : Text) : Prop where
  own : ∀ pre post s, Whole (fun c => c == '\n') pre →
    (Whole (fun c => c == '\n') text ∨ post = []) →
    sdcardNetconf world (pre ++ text ++ post) s =
      sdcardNetconf world post (sdcardNetconf world text (sdcardNetconf world pre s))
  comment : Comment text → ∀ pre post s, Whole (fun c => c == '\n') pre →
    (Whole (fun c => c == '\n') text ∨ post = []) →
    Alike (sdcardNetconf world (pre ++ text ++ post) s) (sdcardNetconf world (pre ++ post) s)

theorem own_effect {text pre post : Text} (before : Whole (fun c => c == '\n') pre)
    (ended : Whole (fun c => c == '\n') text ∨ post = []) :
    sdcardNetconf world (pre ++ text ++ post) s =
      sdcardNetconf world post (sdcardNetconf world text (sdcardNetconf world pre s)) := by
  rw [List.append_assoc, sdcardNetconf_append before]
  obtain whole | rfl := ended
  · rw [sdcardNetconf_append whole]
  · rw [List.append_nil]
    rfl

/-- Lines have their own effect, and comments none, but for those where what is read after the
first 63 characters is a command. -/
theorem lines_law_iff (world : World) (text : Text) :
    LineLaw world text ↔ (Comment text → ∀ line ∈ lines text, ¬ Acts world line) := by
  constructor
  · intro law comment
    apply netconf_alike_iff.1
    intro s
    have alone := law.comment comment [] [] s nofun (.inr rfl)
    rwa [List.nil_append, List.append_nil] at alone
  · intro idle
    refine ⟨fun pre post s => own_effect, ?_⟩
    intro comment pre post s before ended
    have none : ∀ s, sdcardNetconf world text s = s := fun s => netconf_idle (idle comment)
    rw [own_effect before ended, none, sdcardNetconf_append before]
    exact ⟨rfl, rfl⟩

theorem malformed_cases {ls : List Text} (malformed : ∀ line ∈ ls, Malformed world line) :
    ls.foldl (netconfLine world) s =
      if ∃ line ∈ ls, (commandOf line).map Prod.fst = some .addr then setUseStatic 1 s else s := by
  induction ls generalizing s with
  | nil => exact (if_neg (by simp)).symm
  | cons line ls ih =>
      rw [List.forall_mem_cons] at malformed
      rw [List.foldl_cons, netconfLine_malformed malformed.1, ih malformed.2]
      by_cases here : (commandOf line).map Prod.fst = some .addr
      · simp only [List.exists_mem_cons_iff, here, true_or, if_true]
        split <;> rfl
      · simp only [List.exists_mem_cons_iff, here, false_or, if_false]

/-- Pieces that are all malformed change nothing, but for `addr`, which implies a static address
all the same. -/
theorem malformed_alike_iff (malformed : ∀ line ∈ lines file, Malformed world line) :
    Alike (sdcardNetconf world file s) s ↔
      ((∃ line ∈ lines file, (commandOf line).map Prod.fst = some .addr) →
        s.conf.useStatic = 1) := by
  rw [sdcardNetconf, malformed_cases malformed]
  by_cases addr : ∃ line ∈ lines file, (commandOf line).map Prod.fst = some .addr
  · rw [if_pos addr]
    constructor
    · intro alike _
      exact (congrArg NetConfig.useStatic alike.1).symm
    · intro static
      refine ⟨?_, rfl⟩
      rw [setUseStatic, ← static addr]
  · rw [if_neg addr]
    exact iff_of_true ⟨rfl, rfl⟩ fun some => absurd some addr

/-- A malformed line of any length changes nothing when no piece of it acts, and, where all its
pieces are malformed too, in a state whose address is static already. -/
theorem malformed_iff (world : World) (text : Text) :
    ((Malformed world text → ∀ s, Alike (sdcardNetconf world text s) s) ↔
      (Malformed world text → ∀ line ∈ lines text, ¬ Acts world line)) ∧
    ∀ s, (∀ line ∈ lines text, Malformed world line) →
      (Alike (sdcardNetconf world text s) s ↔
        ((∃ line ∈ lines text, (commandOf line).map Prod.fst = some .addr) →
          s.conf.useStatic = 1)) :=
  ⟨forall_congr' fun _ => netconf_alike_iff, fun _ pieces => malformed_alike_iff pieces⟩

end File

section Files

/-- A board with no card yet, and one address that is known. -/
def someWorld : World where
  inetAton word := if word = "10.0.0.1".toList then some 0x0100000A else none
  macAddress := fun _ => 0

def dynamic : State := ⟨⟨0, 0, 0, 0, fun _ => 0⟩, blankBoard, 0⟩

/-- A comment of 63 characters and a command behind them. -/
def longComment : Text := '#' :: List.replicate 62 'x' ++ "dhcp no\n".toList

theorem longComment_acts : ¬ LineLaw someWorld longComment := by
  intro law
  have alike := law.comment (by decide) [] [] dynamic nofun (.inr rfl)
  have static : (sdcardNetconf someWorld ([] ++ longComment ++ []) dynamic).conf.useStatic = 1 := by
    decide +kernel
  rw [alike.1] at static
  cases static

/-- A line whose argument is missing is malformed where one is required. -/
theorem missing_malformed {line : Text} {c : Command} (missing : commandOf line = some (c, none))
    (required : ¬ Acceptable someWorld none c) : Malformed someWorld line := by
  intro c' arg command
  rw [missing] at command
  obtain ⟨rfl, rfl⟩ := Prod.mk.inj (Option.some.inj command)
  exact required

theorem missingAddr_acts : Malformed someWorld "addr\n".toList ∧
    ¬ Alike (sdcardNetconf someWorld "addr\n".toList dynamic) dynamic := by
  refine ⟨missing_malformed (c := .addr) (by decide) ?_, ?_⟩
  · rintro ⟨word, none, -⟩
    cases none
  · intro alike
    have static : (sdcardNetconf someWorld "addr\n".toList dynamic).conf.useStatic = 1 := by
      decide +kernel
    rw [alike.1] at static
    cases static

theorem missingMask_ignored : Alike (sdcardNetconf someWorld "mask\n".toList dynamic) dynamic := by
  have single : lines "mask\n".toList = ["mask\n".toList] :=
    lines_single (by decide) (by decide) (by decide)
  apply ((malformed_iff someWorld "mask\n".toList).2 dynamic ?_).2
  · rintro ⟨line, listed, addr⟩
    rw [single, List.mem_singleton] at listed
    rw [listed] at addr
    cases addr
  · intro line listed
    rw [single, List.mem_singleton] at listed
    rw [listed]
    refine missing_malformed (c := .mask) (by decide) ?_
    rintro ⟨word, none, -⟩
    cases none

theorem sixGroups_law : HwaddrLaw someWorld "0a:1B:2c:3D:4e:5F".toList dynamic := by
  apply hwaddr_exact
  · decide
  · decide

end Files

end PscDigpid.Sw.Netconf

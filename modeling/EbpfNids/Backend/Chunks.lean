import EbpfNids.Backend.SocketLoop
import EbpfNids.Backend.Stripped
import EbpfNids.Backend.Utf8

/-!
# Messages that come in chunks

The loop keeps what is left of a line until the rest of it comes, but not what
is left of a character: every chunk is decoded on its own, and the bytes of a
character that two chunks share are ignored. So the loop reads every line
without the characters that a chunk starts inside of (`lines_received`), and
what it handles depends on how the stream was cut (`cut_character_is_lost`).

It handles what `json.loads` makes of each of the lines exactly when `json.loads`
reads every one of them, every line reads the same without those characters and no
message before the last makes the handler raise (`handles_all_iff`). That no line
suffers is certain when every chunk holds whole characters (`readsSame_of_whole`).
All of this is true of any parser in the place of `json.loads`: where the
interpreter's limit on nesting lies, for one, is not said.
-/

set_option autoImplicit false

namespace EbpfNids.Backend

open Library Library.Framing Library.SelfSync

/-! ## Lines of characters -/

/-- Lines, each with its newline. -/
def joined (lines : List (List Char)) : List Char := lines.flatMap fun line => line ++ ['\n']

/-- What is left of each line when the characters are taken out that a chunk
starts inside of. -/
def linesLeft : List (List Char) → List Bool → List (List Char)
  | [], _ => []
  | line :: rest, startsAt =>
      uncut String.utf8EncodeChar line startsAt ::
        linesLeft rest (startsAt.drop ((utf8 line).length + 1))

theorem utf8_flatten (parts : List (List Char)) :
    utf8 parts.flatten = (parts.map utf8).flatten := by
  induction parts with
  | nil => rfl
  | cons part rest ih =>
      rw [List.flatten_cons, List.map_cons, List.flatten_cons, ← ih]
      exact List.flatMap_append

/-- A newline is one byte, and never cut. -/
theorem uncut_newline (startsAt : List Bool) :
    uncut String.utf8EncodeChar ['\n'] startsAt = ['\n'] := by
  have single : (String.utf8EncodeChar '\n').length = 1 := rfl
  rw [uncut, single]
  cases startsAt with
  | nil => rfl
  | cons flag more => rfl

theorem uncut_joined (lines : List (List Char)) (startsAt : List Bool) :
    uncut String.utf8EncodeChar (joined lines) startsAt = joined (linesLeft lines startsAt) := by
  induction lines generalizing startsAt with
  | nil => rfl
  | cons line rest ih =>
      have length : ((line ++ ['\n']).flatMap String.utf8EncodeChar).length =
          (utf8 line).length + 1 := by
        rw [List.flatMap_append, List.length_append]
        rfl
      rw [joined, List.flatMap_cons, uncut_append, uncut_append, uncut_newline, length, ← joined,
        ih]
      rfl

theorem newline_mem_codePoints {line : List Char} : 10 ∈ codePoints line ↔ '\n' ∈ line := by
  constructor
  · intro member
    obtain ⟨c, inLine, code⟩ := List.mem_map.mp member
    obtain rfl : c = '\n' := Char.ext (UInt32.toNat_inj.mp code)
    exact inLine
  · intro member
    exact List.mem_map.mpr ⟨'\n', member, rfl⟩

theorem drain_joined {lines : List (List Char)} (unmarked : ∀ line ∈ lines, '\n' ∉ line) :
    drain 10 (codePoints (joined lines)) = (lines.map codePoints, []) := by
  induction lines with
  | nil => rfl
  | cons line rest ih =>
      have split : codePoints (joined (line :: rest)) =
          codePoints line ++ 10 :: codePoints (joined rest) := by
        simp [joined, codePoints]
      have here : 10 ∉ codePoints line :=
        mt newline_mem_codePoints.mp (unmarked line List.mem_cons_self)
      rw [split, drain_piece here, ih fun other member =>
        unmarked other (List.mem_cons_of_mem _ member)]
      rfl

theorem unmarked_linesLeft {lines : List (List Char)} (unmarked : ∀ line ∈ lines, '\n' ∉ line)
    (startsAt : List Bool) : ∀ line ∈ linesLeft lines startsAt, '\n' ∉ line := by
  induction lines generalizing startsAt with
  | nil => exact fun _ member => absurd member List.not_mem_nil
  | cons line rest ih =>
      intro left member
      rcases List.mem_cons.mp member with rfl | later
      · exact fun newline => unmarked line List.mem_cons_self
          ((uncut_sublist line startsAt).subset newline)
      · exact ih (fun other inRest => unmarked other (List.mem_cons_of_mem _ inRest)) _ left later

/-- **What the loop reads.** The lines that it cuts off are those of the stream,
each without the characters that a chunk starts inside of. -/
theorem lines_received {lines : List (List Char)} (unmarked : ∀ line ∈ lines, '\n' ∉ line)
    {chunks : List (List UInt8)} (cut : chunks.flatten = utf8 (joined lines)) :
    (drain 10 (received chunks)).1 = (linesLeft lines (starts chunks)).map codePoints := by
  rw [received, received_utf8 cut, uncut_joined, drain_joined (unmarked_linesLeft unmarked _)]

/-! ## Chunks of whole characters -/

theorem decodeIgnore_utf8 (chars : List Char) : decodeIgnore (utf8 chars) = codePoints chars := by
  rw [decodeIgnore, decodeFrom_eq, utf8, utf8_synchronizes.decode_whole]
  rfl

theorem codePoints_injective : Function.Injective codePoints :=
  List.map_injective_iff.mpr fun _ _ same => Char.ext (UInt32.toNat_inj.mp same)

/-- No line loses anything when every chunk holds whole characters. -/
theorem linesLeft_of_whole {lines : List (List Char)} (unmarked : ∀ line ∈ lines, '\n' ∉ line)
    {parts : List (List Char)} (cut : (parts.map utf8).flatten = utf8 (joined lines)) :
    linesLeft lines (starts (parts.map utf8)) = lines := by
  have encoded : utf8 parts.flatten = utf8 (joined lines) := by
    rw [← cut, utf8_flatten]
  have decoded := congrArg decodeIgnore encoded
  rw [decodeIgnore_utf8, decodeIgnore_utf8] at decoded
  have stream : received (parts.map utf8) = codePoints (joined lines) := by
    rw [received, List.flatMap_map, ← decoded]
    simp only [decodeIgnore_utf8, codePoints, List.map_flatten, List.flatMap_def]
  have read := lines_received unmarked cut
  rw [stream, drain_joined unmarked] at read
  exact (List.map_injective_iff.mpr codePoints_injective read).symm

/-! ## Messages -/

section Parser

variable (loads : Text → Except PyExn Json)

/-- A line that is blank, or that `json.loads` reads. -/
def JsonLine (line : Text) : Prop := strip line = [] ∨ ∃ msg, loads line = .ok msg

/-- The message of a line, unless it is blank. -/
def lineMessage (line : Text) : Option Json :=
  if strip line = [] then none else (loads line).toOption

variable {loads}

/-- A JSON line reads the same when it has been stripped, if `json.loads` passes over
white space. -/
theorem JsonLine.readLine_eq
    (strips : ∀ line msg, loads line = .ok msg → loads (strip line) = .ok msg) {line : Text}
    (json : JsonLine loads line) : readLine loads line = lineMessage loads line := by
  rw [readLine, lineMessage]
  rcases json with blank | ⟨msg, parsed⟩
  · rw [if_pos blank, if_pos blank]
  · rw [strips line msg parsed, parsed]

theorem JsonLine.blank {line : Text} (json : JsonLine loads line)
    (nothing : lineMessage loads line = none) : strip line = [] := by
  by_contra content
  obtain ⟨msg, parsed⟩ := json.resolve_left content
  rw [lineMessage, if_neg content, parsed] at nothing
  cases nothing

variable {S : Type} (loads) (handle : S → Json → S × Option PyExn)

/-- No message before the last makes the handler raise what leaves the loop. -/
def GoesOn : S → List Json → Prop
  | _, [] => True
  | world, msg :: rest =>
      (rest ≠ [] → uncaught (handle world msg).2 = none) ∧ GoesOn (handle world msg).1 rest

/-- The messages of which the handler is called, for the lines that are cut off. -/
def messagesFrom : S → List Text → List Json
  | _, [] => []
  | world, line :: rest =>
      if strip line = [] then messagesFrom world rest
      else
        match loads (strip line) with
        | .error e => if (uncaught (some e)).isSome then [] else messagesFrom world rest
        | .ok msg =>
            msg :: if (uncaught (handle world msg).2).isSome then []
              else messagesFrom (handle world msg).1 rest

theorem messages_handleLines_eq (session : Session S) (running : session.raised = none)
    (lines : List Text) :
    (handleLines ⟨loads, handle⟩ session lines).calls.map Call.msg =
      session.calls.map Call.msg ++ messagesFrom loads handle session.world lines := by
  induction lines generalizing session with
  | nil => exact (List.append_nil _).symm
  | cons line rest ih =>
      rw [handleLines_cons _ running, messagesFrom, handleLine]
      dsimp only
      split
      · exact ih _ running
      · cases parsed : loads (strip line) with
        | error e =>
            dsimp only
            cases uncaught (some e) with
            | none => exact ih _ rfl
            | some e' =>
                rw [handleLines_raised _ rfl]
                exact (List.append_nil _).symm
        | ok msg =>
            dsimp only
            cases uncaught (handle session.world msg).2 with
            | none =>
                rw [ih _ rfl, List.map_append, List.append_assoc]
                rfl
            | some e' =>
                rw [handleLines_raised _ rfl, List.map_append]
                rfl

/-- The messages of a stream: one for every line that is not blank. -/
def streamMessages (lines : List (List Char)) : List Json :=
  lines.filterMap fun line => lineMessage loads (codePoints line)

variable {loads} in
theorem streamMessages_cons_none {line : List Char} {rest : List (List Char)}
    (blank : lineMessage loads (codePoints line) = none) :
    streamMessages loads (line :: rest) = streamMessages loads rest :=
  List.filterMap_cons_none blank

variable {loads} in
theorem streamMessages_cons_some {line : List Char} {rest : List (List Char)} {msg : Json}
    (whole : lineMessage loads (codePoints line) = some msg) :
    streamMessages loads (line :: rest) = msg :: streamMessages loads rest :=
  List.filterMap_cons_some whole

/-- Every line reads the same without the characters that a chunk starts inside
of. -/
def ReadsSame (lines : List (List Char)) (startsAt : List Bool) : Prop :=
  (linesLeft lines startsAt).map (fun line => readLine loads (codePoints line)) =
    lines.map fun line => lineMessage loads (codePoints line)

/-! ## One line -/

section Line

variable {loads} {handle} {world : S} {line : Text} {rest : List Text}

theorem messagesFrom_of_none (unread : readLine loads line = none) :
    messagesFrom loads handle world (line :: rest) = [] ∨
      messagesFrom loads handle world (line :: rest) = messagesFrom loads handle world rest := by
  rw [messagesFrom]
  rw [readLine] at unread
  split
  · exact Or.inr rfl
  · rename_i content
    rw [if_neg content] at unread
    cases parsed : loads (strip line) with
    | error e =>
        dsimp only
        split
        · exact Or.inl rfl
        · exact Or.inr rfl
    | ok msg =>
        rw [parsed] at unread
        cases unread

theorem messagesFrom_of_some {msg : Json} (read : readLine loads line = some msg) :
    messagesFrom loads handle world (line :: rest) =
      msg :: if (uncaught (handle world msg).2).isSome then []
        else messagesFrom loads handle (handle world msg).1 rest := by
  rw [messagesFrom]
  rw [readLine] at read
  by_cases blank : strip line = []
  · rw [if_pos blank] at read
    cases read
  · rw [if_neg blank] at read ⊢
    cases parsed : loads (strip line) with
    | error e =>
        rw [parsed] at read
        cases read
    | ok found =>
        rw [parsed] at read
        cases read
        rfl

end Line

/-- A blank line stays blank. -/
theorem strip_uncut {line : List Char} (blank : strip (codePoints line) = [])
    (startsAt : List Bool) :
    strip (codePoints (uncut String.utf8EncodeChar line startsAt)) = [] := by
  rw [strip_eq_nil_iff] at blank ⊢
  intro c member
  exact blank c (((uncut_sublist line startsAt).map Char.toNat).subset member)

/-! ## All lines -/

section Lines

variable {loads} {handle}

theorem length_messagesFrom_le {lines : List (List Char)}
    (json : ∀ line ∈ lines, JsonLine loads (codePoints line)) (world : S) (startsAt : List Bool) :
    (messagesFrom loads handle world ((linesLeft lines startsAt).map codePoints)).length ≤
      (streamMessages loads lines).length := by
  induction lines generalizing world startsAt with
  | nil => exact Nat.le_refl 0
  | cons line rest ih =>
      have later := ih fun other member => json other (List.mem_cons_of_mem _ member)
      rw [linesLeft, List.map_cons]
      cases read : readLine loads
          (codePoints (uncut String.utf8EncodeChar line startsAt)) with
      | none =>
          have most : (streamMessages loads rest).length ≤
              (streamMessages loads (line :: rest)).length := by
            cases whole : lineMessage loads (codePoints line) with
            | none => rw [streamMessages_cons_none whole]
            | some msg =>
                rw [streamMessages_cons_some whole]
                exact Nat.le_succ _
          rcases messagesFrom_of_none read with nothing | skipped
          · rw [nothing]
            exact Nat.zero_le _
          · rw [skipped]
            exact (later world _).trans most
      | some msg =>
          cases whole : lineMessage loads (codePoints line) with
          | none =>
              have blank := (json line List.mem_cons_self).blank whole
              rw [readLine, if_pos (strip_uncut blank startsAt)] at read
              cases read
          | some msg' =>
              rw [messagesFrom_of_some read, streamMessages_cons_some whole]
              refine Nat.succ_le_succ ?_
              split
              · exact Nat.zero_le _
              · exact later _ _

/-- Lines without a message all read the same. -/
theorem readsSame_of_no_messages {lines : List (List Char)}
    (json : ∀ line ∈ lines, JsonLine loads (codePoints line)) (startsAt : List Bool)
    (nothing : streamMessages loads lines = []) : ReadsSame loads lines startsAt := by
  induction lines generalizing startsAt with
  | nil => rfl
  | cons line rest ih =>
      have every : ∀ other ∈ line :: rest, lineMessage loads (codePoints other) = none :=
        List.filterMap_eq_nil_iff.mp nothing
      have here := every line List.mem_cons_self
      have later := ih (fun other member => json other (List.mem_cons_of_mem _ member))
        (startsAt.drop ((utf8 line).length + 1))
        (List.filterMap_eq_nil_iff.mpr fun other member =>
          every other (List.mem_cons_of_mem _ member))
      have blank := strip_uncut ((json line List.mem_cons_self).blank here) startsAt
      rw [ReadsSame, linesLeft, List.map_cons, List.map_cons, here, readLine, if_pos blank]
      exact congrArg (none :: ·) later

/-- **Loop lemma.** The loop handles the messages of the stream if and only if
every line reads the same and no message before the last stops it. -/
theorem messagesFrom_eq_iff {lines : List (List Char)}
    (json : ∀ line ∈ lines, JsonLine loads (codePoints line)) (world : S) (startsAt : List Bool) :
    messagesFrom loads handle world ((linesLeft lines startsAt).map codePoints) =
        streamMessages loads lines ↔
      ReadsSame loads lines startsAt ∧ GoesOn handle world (streamMessages loads lines) := by
  induction lines generalizing world startsAt with
  | nil => exact iff_of_true rfl ⟨rfl, True.intro⟩
  | cons line rest ih =>
      have laterJson : ∀ other ∈ rest, JsonLine loads (codePoints other) := fun other member =>
        json other (List.mem_cons_of_mem _ member)
      have later := ih laterJson
      have split : ReadsSame loads (line :: rest) startsAt ↔
          readLine loads (codePoints (uncut String.utf8EncodeChar line startsAt)) =
              lineMessage loads (codePoints line) ∧
            ReadsSame loads rest (startsAt.drop ((utf8 line).length + 1)) := by
        rw [ReadsSame, linesLeft, List.map_cons, List.map_cons, List.cons.injEq, ← ReadsSame]
      rw [split, linesLeft, List.map_cons]
      cases whole : lineMessage loads (codePoints line) with
      | none =>
          -- a blank line is passed over, whole or not
          have blank := strip_uncut ((json line List.mem_cons_self).blank whole) startsAt
          rw [streamMessages_cons_none whole, readLine, if_pos blank, messagesFrom, if_pos blank,
            later]
          simp
      | some msg =>
          rw [streamMessages_cons_some whole]
          cases read : readLine loads
              (codePoints (uncut String.utf8EncodeChar line startsAt)) with
          | none =>
              -- a message too few
              have few : (messagesFrom loads handle world _).length ≤
                  (streamMessages loads rest).length :=
                length_messagesFrom_le laterJson world (startsAt.drop ((utf8 line).length + 1))
              refine iff_of_false (fun same => ?_) fun both => Option.some_ne_none _ both.1.1.symm
              have length := congrArg List.length same
              rw [List.length_cons] at length
              rcases messagesFrom_of_none read with nothing | skipped
              · rw [nothing, List.length_nil] at length
                omega
              · rw [skipped] at length
                omega
          | some found =>
              rw [messagesFrom_of_some read, List.cons.injEq, Option.some.injEq, GoesOn, and_assoc]
              refine and_congr_right ?_
              rintro rfl
              cases stops : uncaught (handle world found).2 with
              | none =>
                  rw [if_neg (by simp), later]
                  simp
              | some e =>
                  -- the loop ends, which loses nothing if and only if the messages end too
                  rw [if_pos Option.isSome_some]
                  constructor
                  · intro nothing
                    rw [← nothing]
                    refine ⟨readsSame_of_no_messages laterJson _ nothing.symm, ?_, True.intro⟩
                    exact fun more => absurd rfl more
                  · rintro ⟨-, last, -⟩
                    by_contra more
                    cases last (Ne.symm more)

/-- Messages are what `json.loads` gives for the texts that are not blank if and only if
it reads all of these, and the messages are theirs. -/
theorem map_ok_eq_iff (msgs : List Json) (texts : List Text) :
    msgs.map Except.ok = (texts.filter fun line => strip line ≠ []).map loads ↔
      (∀ line ∈ texts, JsonLine loads line) ∧ msgs = texts.filterMap (lineMessage loads) := by
  induction texts generalizing msgs with
  | nil => simp
  | cons line rest ih =>
      rw [List.forall_mem_cons]
      by_cases blank : strip line = []
      · have none : lineMessage loads line = none := if_pos blank
        rw [List.filter_cons_of_neg (by simpa using blank), ih, List.filterMap_cons_none none]
        simp [JsonLine, blank]
      · rw [List.filter_cons_of_pos (by simpa using blank), List.map_cons]
        cases parsed : loads line with
        | error e =>
            refine iff_of_false (fun same => ?_) fun both => ?_
            · cases msgs with
              | nil => cases same
              | cons msg more => cases (List.cons.inj same).1
            · obtain ⟨msg, read⟩ := both.1.1.resolve_left blank
              rw [parsed] at read
              cases read
        | ok found =>
            have some : lineMessage loads line = some found := by
              rw [lineMessage, if_neg blank, parsed]
              rfl
            have json : JsonLine loads line := Or.inr ⟨found, parsed⟩
            rw [List.filterMap_cons_some some]
            cases msgs with
            | nil => simp
            | cons msg more =>
                rw [List.map_cons, List.cons.injEq, ih more, Except.ok.injEq, List.cons.injEq]
                tauto

/-- The handler is called for every line that is not blank, in order, with what
`json.loads` gives for the line. -/
def HandlesAll (loads : Text → Except PyExn Json) (handle : S → Json → S × Option PyExn)
    (world : S) (lines : List (List Char)) (chunks : List (List UInt8)) : Prop :=
  (receive ⟨loads, handle⟩ world chunks).1.calls.map (fun call => Except.ok call.msg) =
    ((lines.map codePoints).filter fun line => strip line ≠ []).map loads

/-- **One cut.** The loop handles the messages of all the lines, each as
`json.loads` reads it, if and only if it reads all of them, every line reads the same
without the characters that a chunk starts inside of and no message before the last
makes the handler raise. -/
theorem handles_all_iff {lines : List (List Char)} (unmarked : ∀ line ∈ lines, '\n' ∉ line)
    (world : S) {chunks : List (List UInt8)} (cut : chunks.flatten = utf8 (joined lines)) :
    HandlesAll loads handle world lines chunks ↔
      (∀ line ∈ lines, JsonLine loads (codePoints line)) ∧
        ReadsSame loads lines (starts chunks) ∧
          GoesOn handle world (streamMessages loads lines) := by
  have calls : (receive ⟨loads, handle⟩ world chunks).1.calls.map
      (fun call => (Except.ok call.msg : Except PyExn Json)) =
        (messagesFrom loads handle world
          ((linesLeft lines (starts chunks)).map codePoints)).map Except.ok := by
    rw [← lines_received unmarked cut, ← List.nil_append (messagesFrom _ _ _ _)]
    have messages := messages_handleLines_eq loads handle ⟨world, [], none⟩ rfl
      (drain 10 (received chunks)).1
    rw [← (receive_session ⟨loads, handle⟩ world chunks).1] at messages
    exact (List.map_map ..).symm.trans (congrArg (List.map Except.ok) messages)
  have stream : (lines.map codePoints).filterMap (lineMessage loads) =
      streamMessages loads lines := by
    rw [List.filterMap_map]
    rfl
  rw [HandlesAll, calls, map_ok_eq_iff, List.forall_mem_map, stream]
  exact and_congr_right fun json => messagesFrom_eq_iff json world (starts chunks)

/-- Chunks of whole characters let every line read the same. -/
theorem readsSame_of_whole
    (strips : ∀ line msg, loads line = .ok msg → loads (strip line) = .ok msg)
    {lines : List (List Char)} (unmarked : ∀ line ∈ lines, '\n' ∉ line)
    (json : ∀ line ∈ lines, JsonLine loads (codePoints line)) {parts : List (List Char)}
    (cut : (parts.map utf8).flatten = utf8 (joined lines)) :
    ReadsSame loads lines (starts (parts.map utf8)) := by
  rw [ReadsSame, linesLeft_of_whole unmarked cut]
  exact List.map_congr_left fun line member => (json line member).readLine_eq strips

end Lines

/-- **When chunks do not matter.** For two ways of cutting a stream of lines, the handler
is called both times with what `json.loads` gives for each line that is not blank, if
and only if `json.loads` reads all these lines, every line reads the same without the
characters that either of them cuts, and no message before the last makes the handler
raise. -/
theorem chunking_iff {S : Type} (loads : Text → Except PyExn Json)
    (handle : S → Json → S × Option PyExn) (world : S)
    (lines : List (List Char)) (first second : List (List UInt8))
    (unmarked : ∀ line ∈ lines, '\n' ∉ line)
    (cutFirst : first.flatten = utf8 (joined lines))
    (cutSecond : second.flatten = utf8 (joined lines)) :
    (HandlesAll loads handle world lines first ∧ HandlesAll loads handle world lines second) ↔
      (∀ line ∈ lines, JsonLine loads (codePoints line)) ∧
        (ReadsSame loads lines (starts first) ∧ ReadsSame loads lines (starts second)) ∧
          GoesOn handle world (streamMessages loads lines) := by
  rw [handles_all_iff unmarked world cutFirst, handles_all_iff unmarked world cutSecond,
    and_and_and_comm, and_self, and_and_and_comm, and_self]

end Parser

/-- A message of the type `é`. -/
def accentLine : List Char :=
  ['\x7b', '\x22', 't', 'y', 'p', 'e', '\x22', ':', '\x22', 'é', '\x22', '\x7d']

theorem jsonLoads_accentLine :
    jsonLoads (codePoints accentLine) = .ok (.obj [(text "type", .str [0xE9])]) := rfl

theorem json_accentLine :
    ∀ line ∈ [accentLine], JsonLine jsonLoads (codePoints line) := by
  intro line member
  obtain rfl := List.mem_singleton.mp member
  exact Or.inr ⟨_, jsonLoads_accentLine⟩

/-- In one chunk or in two, cut between two characters, it arrives. -/
theorem whole_characters_arrive :
    let one := [joined [accentLine]].map utf8
    let two := [accentLine.take 5, accentLine.drop 5 ++ ['\n']].map utf8
    HandlesAll jsonLoads (handleXdpMsg calmEnv) World.empty [accentLine] one ∧
      HandlesAll jsonLoads (handleXdpMsg calmEnv) World.empty [accentLine] two := by
  intro one two
  have unmarked : ∀ line ∈ [accentLine], '\n' ∉ line := by decide
  have cutOne : one.flatten = utf8 (joined [accentLine]) := rfl
  have cutTwo : two.flatten = utf8 (joined [accentLine]) := rfl
  have strips : ∀ line msg, jsonLoads line = .ok msg → jsonLoads (strip line) = .ok msg :=
    fun _ _ => jsonLoads_strip
  have same : ∀ {parts : List (List Char)}, (parts.map utf8).flatten = utf8 (joined [accentLine]) →
      ReadsSame jsonLoads [accentLine] (starts (parts.map utf8)) := fun cut =>
    readsSame_of_whole strips unmarked json_accentLine cut
  have goesOn : GoesOn (handleXdpMsg calmEnv) World.empty
      (streamMessages jsonLoads [accentLine]) := by
    have single : streamMessages jsonLoads [accentLine] =
        [.obj [(text "type", .str [0xE9])]] := rfl
    rw [single]
    exact ⟨fun more => absurd rfl more, True.intro⟩
  exact (chunking_iff jsonLoads (handleXdpMsg calmEnv) World.empty [accentLine] one two unmarked
    cutOne cutTwo).mpr ⟨json_accentLine, ⟨same cutOne, same cutTwo⟩, goesOn⟩

/-- Cut inside its accented character, it arrives without it. -/
theorem cut_character_is_lost :
    let handler := xdpHandler calmEnv
    let bytes := utf8 (joined [accentLine])
    (receive handler World.empty [bytes]).1.calls.map Call.msg =
        [.obj [(text "type", .str [0xE9])]] ∧
      (receive handler World.empty [bytes.take 10, bytes.drop 10]).1.calls.map Call.msg =
        [.obj [(text "type", .str [])]] := ⟨rfl, rfl⟩

end EbpfNids.Backend

import EbpfNids.Library.Framing
import EbpfNids.Backend.Messages

/-!
# The socket loop of the backend

One connection of `xdp_socket_client_loop`: each chunk received is decoded and
appended to the buffer, and while the buffer holds a newline the line before it
is cut off, stripped, and handled unless it is blank. `json.JSONDecodeError` is
caught line by line. Any other exception leaves both loops, and with them the
rest of the buffer and of the connection.

Whatever the chunks, the session is that of the complete lines of the decoded
stream (`receive_session`). So the connection handles what an ideal reader
would up to the first line that raises something else, and nothing after it
(`handled_iff`).
-/

set_option autoImplicit false

namespace EbpfNids.Backend

open Library Library.Framing

/-! ## The loop -/

/-- What parsing and handling a line are to the loop: the parser, and the
handler with the state that it works on. -/
structure Handler (S : Type) where
  loads : Text → Except PyExn Json
  handle : S → Json → S × Option PyExn

/-- A call of the handler: the line, the message, and the exception raised. -/
structure Call where
  line : Text
  msg : Json
  raised : Option PyExn

/-- The state that the handler works on, its calls so far, and the exception
that has left the inner loop. -/
structure Session (S : Type) where
  world : S
  calls : List Call
  raised : Option PyExn

variable {S : Type} (handler : Handler S)

/-- The `try` statement of the inner loop: an exception that is no
`JSONDecodeError` goes on. -/
def uncaught (raised : Option PyExn) : Option PyExn := raised.filter (· != .jsonDecodeError)

/-- The body of the inner loop, on a line that has been cut off. Printing and logging
a line that cannot be parsed are taken not to raise. -/
def handleLine (session : Session S) (line : Text) : Session S :=
  let line := strip line
  if line = [] then session
  else
    match handler.loads line with
    | .error e => { session with raised := uncaught (some e) }
    | .ok msg =>
        let (world, raised) := handler.handle session.world msg
        { world := world, calls := session.calls ++ [⟨line, msg, raised⟩],
          raised := uncaught raised }

/-- `while "\n" in buffer`, for at most `n` rounds. -/
def whileLines : ℕ → Session S → Text → Session S × Text
  | 0, session, buffer => (session, buffer)
  | n + 1, session, buffer =>
      match splitFirst 10 buffer with
      | none => (session, buffer)
      | some (line, rest) =>
          let session := handleLine handler session line
          if session.raised.isSome then (session, rest) else whileLines n session rest

/-- One round of the outer loop. A round takes at least a character off the
buffer, so its length is enough rounds. -/
def recvChunk (state : Session S × Text) (chunk : List UInt8) : Session S × Text :=
  if state.1.raised.isSome then state
  else
    let buffer := state.2 ++ decodeIgnore chunk
    whileLines handler buffer.length state.1 buffer

/-- A connection that delivers some chunks. -/
def receive (world : S) (chunks : List (List UInt8)) : Session S × Text :=
  chunks.foldl (recvChunk handler) (⟨world, [], none⟩, [])

/-! ## Lines of the whole stream -/

/-- Lines handled one after the other, until one raises. -/
def handleLines (session : Session S) (lines : List Text) : Session S :=
  lines.foldl (fun session line =>
    if session.raised.isSome then session else handleLine handler session line) session

/-- What the connection has received, decoded. -/
def received (chunks : List (List UInt8)) : Text := chunks.flatMap decodeIgnore

/-- Bytes below 128 are received as they were sent, however they are cut. -/
theorem received_asciiBytes {chunks : List (List UInt8)} {t : Text} (ascii : ∀ c ∈ t, c < 128)
    (cut : chunks.flatten = asciiBytes t) : received chunks = t := by
  have fits : ∀ b ∈ chunks.flatten, b.toNat < 128 := by
    intro b member
    rw [cut] at member
    obtain ⟨c, inText, rfl⟩ := List.mem_map.mp member
    exact Nat.lt_of_le_of_lt (Nat.mod_le c _) (ascii c inText)
  have each : received chunks = decodeIgnore chunks.flatten := by
    rw [received, decodeIgnore_ascii fits, List.map_flatten, List.flatMap_def]
    congr 1
    refine List.map_congr_left fun chunk member => decodeIgnore_ascii fun b inChunk => ?_
    exact fits b (List.mem_flatten.mpr ⟨chunk, member, inChunk⟩)
  rw [each, cut, decodeIgnore_asciiBytes ascii]

theorem handleLines_raised {session : Session S} (raised : session.raised.isSome)
    (lines : List Text) : handleLines handler session lines = session := by
  induction lines with
  | nil => rfl
  | cons line rest ih =>
      rw [handleLines, List.foldl_cons, if_pos raised]
      exact ih

theorem handleLines_append (session : Session S) (first second : List Text) :
    handleLines handler session (first ++ second) =
      handleLines handler (handleLines handler session first) second := List.foldl_append ..

theorem handleLines_cons {session : Session S} (running : session.raised = none) (line : Text)
    (rest : List Text) :
    handleLines handler session (line :: rest) =
      handleLines handler (handleLine handler session line) rest := by
  rw [handleLines, List.foldl_cons, if_neg (by simp [running])]
  rfl

/-- The inner loop handles the complete lines of the buffer, and leaves what is
left of it unless one has raised. -/
theorem whileLines_eq {n : ℕ} {session : Session S} {buffer : Text}
    (running : session.raised = none) (enough : buffer.length ≤ n) :
    (whileLines handler n session buffer).1 = handleLines handler session (drain 10 buffer).1 ∧
      ((whileLines handler n session buffer).1.raised = none →
        (whileLines handler n session buffer).2 = (drain 10 buffer).2) := by
  induction n generalizing session buffer with
  | zero =>
      have empty : buffer = [] := List.length_eq_zero_iff.mp (Nat.le_zero.mp enough)
      subst empty
      exact ⟨rfl, fun _ => rfl⟩
  | succ n ih =>
      rw [whileLines, drain_eq]
      cases split : splitFirst 10 buffer with
      | none => exact ⟨rfl, fun _ => rfl⟩
      | some both =>
          obtain ⟨line, rest⟩ := both
          have shorter := splitFirst_length split
          dsimp only
          rw [handleLines_cons handler running]
          by_cases raised : (handleLine handler session line).raised.isSome
          · rw [if_pos raised, handleLines_raised handler raised]
            refine ⟨rfl, ?_⟩
            intro none
            rw [none] at raised
            cases raised
          · rw [if_neg raised]
            exact ih (Option.not_isSome_iff_eq_none.mp raised) (by omega)

/-- **Chunks do not matter.** The session of a connection is that of the complete
lines of what it has received. -/
theorem receive_session (world : S) (chunks : List (List UInt8)) :
    (receive handler world chunks).1 =
        handleLines handler ⟨world, [], none⟩ (drain 10 (received chunks)).1 ∧
      ((receive handler world chunks).1.raised = none →
        (receive handler world chunks).2 = (drain 10 (received chunks)).2) := by
  induction chunks using List.reverseRecOn with
  | nil => exact ⟨rfl, fun _ => rfl⟩
  | append_singleton earlier chunk ih =>
      obtain ⟨session, buffer⟩ := ih
      have stream : received (earlier ++ [chunk]) = received earlier ++ decodeIgnore chunk := by
        simp [received]
      have last : receive handler world (earlier ++ [chunk]) =
          recvChunk handler (receive handler world earlier) chunk := by
        rw [receive, List.foldl_append]
        rfl
      rw [last, stream, drain_append, handleLines_append, ← session, recvChunk]
      by_cases raised : (receive handler world earlier).1.raised.isSome
      · rw [if_pos raised, handleLines_raised handler raised]
        refine ⟨rfl, ?_⟩
        intro none
        rw [none] at raised
        cases raised
      · have running := Option.not_isSome_iff_eq_none.mp raised
        rw [if_neg raised, ← buffer running]
        exact whileLines_eq handler running (Nat.le_refl _)

/-! ## Handlers that do not raise -/

/-- A handler that succeeds on every message. -/
def succeeding (loads : Text → Except PyExn Json) (handle : S → Json → S) : Handler S :=
  ⟨loads, fun world msg => (handle world msg, none)⟩

/-- The message of a line, if it is not blank and can be parsed. -/
def readLine (loads : Text → Except PyExn Json) (line : Text) : Option Json :=
  if strip line = [] then none else (loads (strip line)).toOption

section Succeeding

variable (loads : Text → Except PyExn Json) (handle : S → Json → S)

theorem handleLine_succeeding (session : Session S) (line : Text) :
    (handleLine (succeeding loads handle) session line).calls.map Call.msg =
        session.calls.map Call.msg ++ (readLine loads line).toList ∧
      ((readLine loads line).isSome → session.raised = none →
        (handleLine (succeeding loads handle) session line).raised = none) := by
  rw [readLine, handleLine]
  by_cases blank : strip line = []
  · simp [blank]
  · cases parsed : loads (strip line) with
    | error e => simp [blank, succeeding, parsed, Except.toOption]
    | ok msg => simp [blank, succeeding, parsed, Except.toOption, uncaught]

/-- When every line can be parsed, the handler gets the message of every line. -/
theorem messages_handleLines {session : Session S} (running : session.raised = none)
    {lines : List Text} (parsed : ∀ line ∈ lines, (readLine loads line).isSome) :
    (handleLines (succeeding loads handle) session lines).calls.map Call.msg =
      session.calls.map Call.msg ++ lines.filterMap (readLine loads) := by
  induction lines generalizing session with
  | nil => exact (List.append_nil _).symm
  | cons line rest ih =>
      obtain ⟨calls, goesOn⟩ := handleLine_succeeding loads handle session line
      have first := parsed line List.mem_cons_self
      rw [handleLines_cons _ running, ih (goesOn first running)
        (fun other member => parsed other (List.mem_cons_of_mem _ member)), calls,
        List.append_assoc]
      obtain ⟨msg, read⟩ := Option.isSome_iff_exists.mp first
      rw [List.filterMap_cons_some read, read]
      rfl

/-- The handler gets no more messages than lines can be parsed. -/
theorem length_calls_handleLines (session : Session S) (lines : List Text) :
    (handleLines (succeeding loads handle) session lines).calls.length ≤
      session.calls.length + (lines.filterMap (readLine loads)).length := by
  induction lines generalizing session with
  | nil => exact Nat.le_refl _
  | cons line rest ih =>
      cases running : session.raised with
      | some e =>
          rw [handleLines_raised _ (by rw [running]; rfl)]
          exact Nat.le_add_right _ _
      | none =>
          have calls := congrArg List.length (handleLine_succeeding loads handle session line).1
          rw [List.length_append, List.length_map, List.length_map] at calls
          have later := ih (handleLine (succeeding loads handle) session line)
          rw [handleLines_cons _ running]
          cases read : readLine loads line with
          | none =>
              rw [List.filterMap_cons_none read]
              simp only [read, Option.toList_none, List.length_nil] at calls
              omega
          | some msg =>
              rw [List.filterMap_cons_some read, List.length_cons]
              simp only [read, Option.toList_some, List.length_singleton] at calls
              omega

end Succeeding

/-! ## A reader that survives every line -/

/-- Parsing and handling a line: the state after it, and the exception raised. -/
def attempt (world : S) (line : Text) : S × Option PyExn :=
  match handler.loads line with
  | .error e => (world, some e)
  | .ok msg => handler.handle world msg

/-- The lines with their exceptions, when every line is attempted whatever the
lines before it have raised. -/
def outcomes : S → List Text → List (Text × Option PyExn)
  | _, [] => []
  | world, line :: rest =>
      (line, (attempt handler world line).2) :: outcomes (attempt handler world line).1 rest

/-- The lines that the connection has delivered, stripped, without the blank
ones. -/
def completeLines (chunks : List (List UInt8)) : List Text :=
  ((drain 10 (received chunks)).1.map strip).filter (· ≠ [])

/-- The lines that were handled to the end. -/
def handled (calls : List Call) : List Text := (calls.filter (·.raised.isNone)).map Call.line

/-- The lines of which nothing goes wrong. -/
def sound (results : List (Text × Option PyExn)) : List Text :=
  (results.filter (·.2.isNone)).map Prod.fst

/-- The lines of which nothing goes wrong are handled, each once and in order,
and no other is. -/
def EveryOtherHandled (world : S) (chunks : List (List UInt8)) : Prop :=
  handled (receive handler world chunks).1.calls =
    sound (outcomes handler world (completeLines chunks))

/-- Nothing that could be handled comes after a line that raises something else
than `JSONDecodeError`. -/
def RaisesLast (results : List (Text × Option PyExn)) : Prop :=
  results.Pairwise fun earlier later => (uncaught earlier.2).isSome → later.2.isSome

theorem uncaught_none : uncaught none = none := rfl

theorem handleLine_blank {session : Session S} {line : Text} (blank : strip line = []) :
    handleLine handler session line = session := if_pos blank

/-- What handling a line does to the session. -/
theorem handleLine_spec (session : Session S) {line : Text} (content : strip line ≠ []) :
    (handleLine handler session line).world = (attempt handler session.world (strip line)).1 ∧
      (handleLine handler session line).raised =
        uncaught (attempt handler session.world (strip line)).2 ∧
      handled (handleLine handler session line).calls = handled session.calls ++
        sound [(strip line, (attempt handler session.world (strip line)).2)] := by
  simp only [handleLine, if_neg content, attempt]
  cases parsed : handler.loads (strip line) with
  | error e =>
      refine ⟨rfl, rfl, ?_⟩
      simp [sound]
  | ok msg =>
      refine ⟨rfl, rfl, ?_⟩
      cases raised : (handler.handle session.world msg).2 with
      | none => simp [handled, sound, raised]
      | some e => simp [handled, sound, raised]

/-- The session handles what can be handled up to the first line that raises. -/
theorem handled_handleLines {session : Session S} (running : session.raised = none)
    (lines : List Text) :
    handled (handleLines handler session lines).calls = handled session.calls ++
      sound ((outcomes handler session.world ((lines.map strip).filter (· ≠ []))).takeWhile
        fun result => (uncaught result.2).isNone) := by
  induction lines generalizing session with
  | nil => simp [handleLines, outcomes, sound]
  | cons line rest ih =>
      rw [handleLines_cons handler running]
      by_cases blank : strip line = []
      · rw [handleLine_blank handler blank, ih running]
        simp [blank]
      · obtain ⟨world, raised, calls⟩ := handleLine_spec handler session blank
        rw [List.map_cons, List.filter_cons_of_pos (by simpa using blank), outcomes]
        cases goesOn : uncaught (attempt handler session.world (strip line)).2 with
        | none =>
            rw [ih (raised.trans goesOn), calls, world,
              List.takeWhile_cons_of_pos (by simp [goesOn]), List.append_assoc]
            congr 1
            rw [sound, sound, sound, ← List.map_append, ← List.filter_append, List.singleton_append]
        | some e =>
            have failed : ∃ e, (attempt handler session.world (strip line)).2 = some e := by
              rw [← Option.ne_none_iff_exists']
              intro none
              rw [none, uncaught_none] at goesOn
              cases goesOn
            obtain ⟨_, failed⟩ := failed
            rw [handleLines_raised handler (by rw [raised, goesOn]; rfl), calls,
              List.takeWhile_cons_of_neg (by simp [goesOn])]
            simp [sound, failed]

/-- Nothing sound is left out before the first line that raises if and only if
every line after a raising one is unsound. -/
theorem sound_takeWhile_iff (results : List (Text × Option PyExn)) :
    sound (results.takeWhile fun result => (uncaught result.2).isNone) = sound results ↔
      RaisesLast results := by
  induction results with
  | nil => exact iff_of_true rfl List.Pairwise.nil
  | cons first rest ih =>
      rw [RaisesLast, List.pairwise_cons, ← RaisesLast]
      obtain ⟨line, raised⟩ := first
      cases goesOn : uncaught raised with
      | none =>
          have same : sound ((line, raised) :: rest.takeWhile fun result =>
              (uncaught result.2).isNone) = sound ((line, raised) :: rest) ↔
              sound (rest.takeWhile fun result => (uncaught result.2).isNone) = sound rest := by
            cases raised with
            | none => simp [sound]
            | some e => simp [sound]
          rw [List.takeWhile_cons_of_pos (by simp [goesOn]), same, ih]
          simp
      | some e =>
          have failed : raised.isNone = false := by
            cases raised with
            | none => cases goesOn
            | some e => rfl
          rw [List.takeWhile_cons_of_neg (by simp [goesOn])]
          have later : sound ((line, raised) :: rest) = sound rest := by simp [sound, failed]
          rw [later]
          constructor
          · intro empty
            have unsound : ∀ later ∈ rest, later.2.isSome := by
              simpa [sound, List.filter_eq_nil_iff, Option.isSome_iff_ne_none] using empty.symm
            refine ⟨fun later member _ => unsound later member, ?_⟩
            exact List.Pairwise.imp_of_mem (fun _ member _ _ => unsound _ member)
              (List.pairwise_of_forall fun _ _ => True.intro)
          · rintro ⟨unsound, -⟩
            have none : rest.filter (·.2.isNone) = [] := by
              rw [List.filter_eq_nil_iff]
              intro later member sound
              have := unsound later member (by simp)
              simp_all
            simp [sound, none]

/-- **One bad line.** The connection handles every line of which nothing goes
wrong, once and in order, if and only if no such line comes after a line that
raises something else than `JSONDecodeError`. -/
theorem handled_iff (world : S) (chunks : List (List UInt8)) :
    EveryOtherHandled handler world chunks ↔
      RaisesLast (outcomes handler world (completeLines chunks)) := by
  rw [EveryOtherHandled, (receive_session handler world chunks).1,
    handled_handleLines handler rfl, ← sound_takeWhile_iff]
  rfl

/-! ## A message that is no object -/

/-- Surroundings in which nothing fails and there is no model. -/
def calmEnv : Env where
  modelResult _ := none
  ipApi _ := .error .other
  insertAlert _ := none
  insertFlow _ := none
  log _ := none
  emitAlarm _ := none
  emitFlowRate _ := none
  now := 0
  decimalDigit _ := none
  floatInt _ := .error .overflowError
  floatIsZero _ := false
  floatText _ := none
  repr _ := []

/-- The parser and the handler of the backend. -/
def xdpHandler (env : Env) : Handler World := ⟨jsonLoads, handleXdpMsg env⟩

/-- An empty array has no `get`, and the alert after it in the same chunk is
lost. -/
theorem array_costs_next_alert :
    ¬ EveryOtherHandled (xdpHandler calmEnv) World.empty
      [asciiBytes (text "[]\n" ++
        text "\x7b\"type\":\"alert\",\"src_ip\":\"10.0.0.1\"\x7d\n")] := by
  unfold EveryOtherHandled
  decide

end EbpfNids.Backend

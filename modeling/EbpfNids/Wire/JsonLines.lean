import EbpfNids.Loader.Clients
import EbpfNids.Wire.RoundTrip
import EbpfNids.Backend.Beginnings

/-!
# JSON Lines between the loader and the backend

What a client has accepted is lines and beginnings of lines. A beginning has no
newline, so the next whole line ends up behind it on the same line of the
backend (`linesAfter`). Such a line is never a JSON text: after a beginning the
reader is inside an object that the second line does not close
(`readLine_behind`).

So the backend gets the messages of the lines that were accepted whole if and
only if none of them comes after a beginning (`messages_whole_iff`).
-/

set_option autoImplicit false

namespace EbpfNids.Wire

open Library Library.Decimal Library.Framing Library.Runs
open EbpfNids.DataPlane EbpfNids.Loader EbpfNids.Backend

/-! ## Lines and beginnings of lines -/

/-- A text that the reader has not got to the end of, without a newline. -/
structure Beginning (t : Text) : Prop where
  starts : t.head? = some 123
  noNewline : 10 ∉ t
  busy : Busy (feed ⟨.value, []⟩ t)

theorem Beginning.append {s t : Text} (beginning : Beginning s) (noNewline : 10 ∉ t) :
    Beginning (s ++ t) where
  starts := by rw [List.head?_append, beginning.starts]; rfl
  noNewline member := (List.mem_append.mp member).elim beginning.noNewline noNewline
  busy := by
    rw [feed_append]
    exact beginning.busy.feed t

/-- A whole line is a body and a newline, and a proper beginning of a line is a
beginning of its body. -/
theorem taken_cases (s : Send) :
    s.isWhole = true ∧ s.isShort = false ∧ s.taken = body s.ev ++ [10] ∨
      s.isWhole = false ∧ s.isShort = true ∧ Beginning s.taken ∨
      s.isWhole = false ∧ s.isShort = false ∧ s.taken = [] := by
  rcases s.taken_cases with
    ⟨whole, short, taken⟩ | ⟨whole, short, n, positive, less, taken⟩ | nothing
  · exact Or.inl ⟨whole, short, taken.trans (eventLine_eq_body s.ev)⟩
  · have inBody : s.taken = (body s.ev).take n := by
      rw [eventLine_eq_body, List.length_append, List.length_singleton] at less
      rw [taken, eventLine_eq_body, List.take_append_of_le_length (Nat.le_of_lt_succ less)]
    obtain ⟨m, rfl⟩ := Nat.exists_eq_add_one_of_ne_zero (Nat.ne_of_gt positive)
    have beginning : Beginning s.taken := by
      rw [inBody]
      refine ⟨rfl, fun member => newline_not_mem_body s.ev (List.mem_of_mem_take member), ?_⟩
      exact (busy_inside (List.cons_ne_nil _ _) True.intro :
        Busy ⟨.firstKey, [.obj []]⟩).feed _
    exact Or.inr (Or.inl ⟨whole, short, beginning⟩)
  · exact Or.inr (Or.inr nothing)

/-- The lines of the backend, when some text is waiting for its end. -/
def linesAfter : Text → List Send → List Text
  | _, [] => []
  | waiting, s :: rest =>
      if s.isWhole then (waiting ++ body s.ev) :: linesAfter [] rest
      else linesAfter (waiting ++ s.taken) rest

theorem drain_sends {waiting : Text} (unmarked : 10 ∉ waiting) (sends : List Send) :
    (drain 10 (waiting ++ sends.flatMap Send.taken)).1 = linesAfter waiting sends := by
  induction sends generalizing waiting with
  | nil => rw [List.flatMap_nil, List.append_nil, drain_of_not_mem unmarked, linesAfter]
  | cons s rest ih =>
      rw [List.flatMap_cons, linesAfter]
      rcases taken_cases s with ⟨whole, -, taken⟩ | ⟨short, -, beginning⟩ | ⟨nothing, -, taken⟩
      · have line : 10 ∉ waiting ++ body s.ev := fun member =>
          (List.mem_append.mp member).elim unmarked (newline_not_mem_body s.ev)
        have split : waiting ++ (s.taken ++ rest.flatMap Send.taken) =
            (waiting ++ body s.ev) ++ 10 :: ([] ++ rest.flatMap Send.taken) := by
          rw [taken, List.append_assoc, List.append_assoc]
          rfl
        rw [if_pos whole, split, drain_piece line, ih List.not_mem_nil]
      · rw [if_neg (by simp [short]), ← List.append_assoc, ih]
        intro member
        exact (List.mem_append.mp member).elim unmarked beginning.noNewline
      · rw [if_neg (by simp [nothing]), taken, List.nil_append, List.append_nil, ih unmarked]

theorem length_linesAfter (waiting : Text) (sends : List Send) :
    (linesAfter waiting sends).length = (sends.filter Send.isWhole).length := by
  induction sends generalizing waiting with
  | nil => rfl
  | cons s rest ih =>
      rw [linesAfter]
      by_cases whole : s.isWhole = true
      · rw [if_pos whole, List.filter_cons_of_pos whole, List.length_cons, List.length_cons, ih]
      · rw [if_neg whole, List.filter_cons_of_neg whole, ih]

/-! ## Which lines can be read -/

/-- No line is accepted whole after a proper beginning of one. -/
def NoWholeBehind (sends : List Send) : Prop :=
  sends.Pairwise fun earlier later => earlier.isShort = true → later.isWhole = false

/-- While nothing is waiting the lines are the whole lines. -/
theorem linesAfter_of_noWholeBehind {sends : List Send} (clean : NoWholeBehind sends) :
    linesAfter [] sends = (sends.filter Send.isWhole).map fun s => body s.ev := by
  induction sends with
  | nil => rfl
  | cons s rest ih =>
      obtain ⟨first, later⟩ := List.pairwise_cons.mp clean
      rw [linesAfter]
      rcases taken_cases s with ⟨whole, -, -⟩ | ⟨notWhole, short, -⟩ | ⟨notWhole, -, taken⟩
      · rw [if_pos whole, List.filter_cons_of_pos whole, List.map_cons, ih later]
        rfl
      · have none : rest.filter Send.isWhole = [] :=
          List.filter_eq_nil_iff.mpr fun other member => by simp [first other member short]
        have empty : linesAfter ([] ++ s.taken) rest = [] :=
          List.length_eq_zero_iff.mp (by rw [length_linesAfter, none]; rfl)
        rw [if_neg (by simp [notWhole]), List.filter_cons_of_neg (by simp [notWhole]), none, empty]
        rfl
      · rw [if_neg (by simp [notWhole]), List.filter_cons_of_neg (by simp [notWhole]), taken,
          ← ih later]
        rfl

/-- A line behind a beginning is no JSON text. -/
theorem readLine_behind {waiting : Text} (beginning : Beginning waiting) (ev : LoaderEvent) :
    readLine jsonLoads (waiting ++ body ev) = none := by
  have stripped : strip (waiting ++ body ev) = waiting ++ body ev := by
    refine strip_eq_self ?_ ?_
    · rw [List.head?_append, beginning.starts]
      rintro c ⟨⟩
      rfl
    · rw [List.getLast?_append, getLast?_body]
      rintro c ⟨⟩
      rfl
  have starts : ∃ rest, body ev = 123 :: 34 :: 116 :: rest := by
    cases ev with
    | alert e => exact ⟨_, rfl⟩
    | flowRate f => exact ⟨_, rfl⟩
  obtain ⟨rest, starts⟩ := starts
  obtain ⟨e, refused⟩ := finish_behind beginning.busy starts (feed_body ev)
  rw [readLine, stripped, jsonLoads, feed_append, refused]
  split
  · rfl
  · rfl

/-- Behind a beginning the next whole line cannot be read. -/
theorem exists_unreadable_behind {waiting : Text} (beginning : Beginning waiting)
    {sends : List Send} (later : ∃ s ∈ sends, s.isWhole = true) :
    ∃ line ∈ linesAfter waiting sends, readLine jsonLoads line = none := by
  induction sends generalizing waiting with
  | nil =>
      obtain ⟨s, member, -⟩ := later
      cases member
  | cons s rest ih =>
      rw [linesAfter]
      by_cases whole : s.isWhole = true
      · rw [if_pos whole]
        exact ⟨_, List.mem_cons_self, readLine_behind beginning s.ev⟩
      · have inRest : ∃ s ∈ rest, s.isWhole = true := by
          obtain ⟨other, member, otherWhole⟩ := later
          rcases List.mem_cons.mp member with rfl | inRest
          · exact absurd otherWhole whole
          · exact ⟨other, inRest, otherWhole⟩
        have noNewline : 10 ∉ s.taken := by
          rcases taken_cases s with ⟨here, -⟩ | ⟨-, -, short⟩ | ⟨-, -, taken⟩
          · exact absurd here whole
          · exact short.noNewline
          · rw [taken]
            exact List.not_mem_nil
        rw [if_neg whole]
        exact ih (beginning.append noNewline) inRest

theorem exists_unreadable {sends : List Send} (unclean : ¬ NoWholeBehind sends) :
    ∃ line ∈ linesAfter [] sends, readLine jsonLoads line = none := by
  induction sends with
  | nil => exact absurd List.Pairwise.nil unclean
  | cons s rest ih =>
      rw [linesAfter]
      rcases taken_cases s with
        ⟨whole, notShort, -⟩ | ⟨notWhole, -, beginning⟩ | ⟨notWhole, notShort, taken⟩
      · have later : ¬ NoWholeBehind rest := fun clean =>
          unclean (List.pairwise_cons.mpr ⟨fun _ _ short => by simp [notShort] at short, clean⟩)
        obtain ⟨line, member, unreadable⟩ := ih later
        rw [if_pos whole]
        exact ⟨line, List.mem_cons_of_mem _ member, unreadable⟩
      · rw [if_neg (by simp [notWhole]), List.nil_append]
        apply exists_unreadable_behind beginning
        by_contra none
        have notWhole : ∀ other ∈ rest, other.isWhole = false := fun other member =>
          Bool.eq_false_iff.mpr fun whole => none ⟨other, member, whole⟩
        refine unclean (List.pairwise_cons.mpr ⟨fun other member _ => notWhole other member, ?_⟩)
        exact List.Pairwise.imp_of_mem (fun _ member _ _ => notWhole _ member)
          (List.pairwise_of_forall fun _ _ => True.intro)
      · have later : ¬ NoWholeBehind rest := fun clean =>
          unclean (List.pairwise_cons.mpr ⟨fun _ _ short => by simp [notShort] at short, clean⟩)
        rw [if_neg (by simp [notWhole]), taken]
        exact ih later

/-! ## What the handler gets -/

variable {S : Type} (handle : S → Json → S) (world : S)

/-- The messages handed to the handler are those of the lines accepted whole, in
order. -/
def GetsWholeLines (sends : List Send) (chunks : List (List UInt8)) : Prop :=
  (receive (succeeding jsonLoads handle) world chunks).1.calls.map Call.msg =
    (sends.filter Send.isWhole).map fun s => .obj (message s.ev)

theorem getsWholeLines_iff {sends : List Send} {chunks : List (List UInt8)}
    (lines : (drain 10 (received chunks)).1 = linesAfter [] sends) :
    GetsWholeLines handle world sends chunks ↔ NoWholeBehind sends := by
  rw [GetsWholeLines, (receive_session _ _ _).1, lines]
  constructor
  · intro same
    by_contra unclean
    obtain ⟨line, member, unreadable⟩ := exists_unreadable unclean
    have handled := length_calls_handleLines jsonLoads handle ⟨world, [], none⟩
      (linesAfter [] sends)
    have lost : ((linesAfter [] sends).filterMap (readLine jsonLoads)).length <
        (linesAfter [] sends).length :=
      List.length_filterMap_lt_length_iff_exists.mpr ⟨line, member, unreadable⟩
    have count := congrArg List.length same
    rw [List.length_map, List.length_map, ← length_linesAfter []] at count
    simp only [List.length_nil] at handled
    omega
  · intro clean
    have read : ∀ line ∈ linesAfter [] sends, (readLine jsonLoads line).isSome := by
      rw [linesAfter_of_noWholeBehind clean]
      intro line member
      obtain ⟨s, -, rfl⟩ := List.mem_map.mp member
      rw [readLine_body]
      rfl
    rw [messages_handleLines _ _ rfl read, linesAfter_of_noWholeBehind clean, List.filterMap_map]
    have each : (readLine jsonLoads ∘ fun s : Send => body s.ev) =
        fun s => some (.obj (message s.ev)) := funext fun s => readLine_body s.ev
    rw [each, List.filterMap_eq_map']
    rfl

theorem ascii_taken (s : Send) : ∀ c ∈ s.taken, c < 128 := by
  intro c member
  rcases s.taken_cases with ⟨-, -, taken⟩ | ⟨-, -, n, -, -, taken⟩ | ⟨-, -, taken⟩
  · rw [taken] at member
    exact ascii_eventLine s.ev c member
  · rw [taken] at member
    exact ascii_eventLine s.ev c (List.mem_of_mem_take member)
  · rw [taken] at member
    cases member

/-- **Framing.** For a client that stays connected from its acceptance on, and
however its bytes are cut, the handler gets the messages of the lines accepted
whole if and only if no line is accepted whole after a proper beginning of
one. -/
theorem messages_whole_iff {clients : Clients} {i : Fin maxClients} {events : List ClientStep}
    {chunks : List (List UInt8)} (connected : clients i = some [])
    (stays : StaysConnected i events)
    (delivered : exec clientStep clients events i = some chunks.flatten) :
    GetsWholeLines handle world (sendsTo i events) chunks ↔
      NoWholeBehind (sendsTo i events) := by
  rw [exec_slot connected stays, List.nil_append, Option.some.injEq] at delivered
  apply getsWholeLines_iff handle world
  have ascii : ∀ c ∈ (sendsTo i events).flatMap Send.taken, c < 128 := by
    intro c member
    obtain ⟨s, -, inTaken⟩ := List.mem_flatMap.mp member
    exact ascii_taken s c inTaken
  rw [received_asciiBytes ascii delivered.symm]
  exact drain_sends List.not_mem_nil _

/-! ## Two short runs -/

def floodAlert : LoaderEvent := .alert ⟨0x0100007F, 0x0200007F, 1, 5⟩

/-- A line, a full buffer, and another line. -/
def wholeLines : List ClientStep :=
  [.broadcastJsonLine floodAlert fun _ => .sent 116,
    .broadcastJsonLine floodAlert fun _ => .wouldBlock,
    .acceptClients 1, .broadcastJsonLine floodAlert fun _ => .sent 116]

theorem whole_lines_arrive :
    GetsWholeLines (fun _ _ => ()) () (sendsTo 0 wholeLines)
      [(asciiBytes (eventLine floodAlert)).take 50,
        (asciiBytes (eventLine floodAlert)).drop 50 ++ asciiBytes (eventLine floodAlert)] := by
  have connected : acceptClients 1 initClients 0 = some [] := rfl
  refine (messages_whole_iff (fun _ _ => ()) () connected ?_ ?_).mpr ?_
  · unfold StaysConnected
    decide
  · decide +kernel
  · unfold NoWholeBehind
    decide +kernel

/-- A line of which forty bytes are accepted, and a whole line. -/
def shortThenWhole : List ClientStep :=
  [.broadcastJsonLine floodAlert fun _ => .sent 40,
    .broadcastJsonLine floodAlert fun _ => .sent 116]

/-- The whole line ends up behind the beginning, and nothing is handled. -/
theorem short_write_loses_line :
    acceptClients 1 initClients 0 = some [] ∧ StaysConnected 0 shortThenWhole ∧
      ∃ chunks : List (List UInt8),
        exec clientStep (acceptClients 1 initClients) shortThenWhole 0 = some chunks.flatten ∧
        ¬ GetsWholeLines (fun _ _ => ()) () (sendsTo 0 shortThenWhole) chunks := by
  refine ⟨rfl, ?_, [(asciiBytes (eventLine floodAlert)).take 40, asciiBytes (eventLine floodAlert)],
    ?_, fun same => ?_⟩
  · unfold StaysConnected
    decide
  · decide +kernel
  · exact absurd (congrArg List.length same) (by decide +kernel)

end EbpfNids.Wire

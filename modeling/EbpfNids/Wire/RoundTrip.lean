import EbpfNids.Loader.Lines
import EbpfNids.Backend.SocketLoop

/-!
# The codec between the loader and the backend

Each line that the loader prints is the spelling of one JSON object
(`eventLine_eq_body`), so the backend, given the line, hands that object to its
handler and nothing else (`decoded_eventLine`). Its fields are the values that
were printed, under the names that the handler asks for (`round_trip`).
-/

set_option autoImplicit false

namespace EbpfNids.Wire

open Library Library.Decimal Library.Framing
open EbpfNids.DataPlane EbpfNids.Net EbpfNids.Loader EbpfNids.Backend

/-! ## Lines as objects -/

/-- The object that a line stands for. -/
def message : LoaderEvent → List (Text × Json)
  | .alert e =>
      [(text "type", .str (text "alert")),
        (text "src_ip", .str (inetNtop e.srcIp)),
        (text "dst_ip", .str (inetNtop e.dstIp)),
        (text "alert_type", .int e.alertType.toNat),
        (text "alert_name", .str (alertTypeToString e.alertType)),
        (text "timestamp_ns", .int e.timestamp.toNat)]
  | .flowRate f =>
      [(text "type", .str (text "flow_rate")),
        (text "ip", .str (inetNtop f.ip)),
        (text "pps", .int f.pps.toNat),
        (text "bytes_per_sec", .int f.bytesPerSec.toNat),
        (text "total_pkts", .int f.totalPkts.toNat),
        (text "total_bytes", .int f.totalBytes.toNat),
        (text "timestamp", .int f.timestamp.toInt)]

def strField (key : String) (s : Text) : FieldText := ⟨text key, quoted s, .str s⟩

def intField (key : String) (z : ℤ) : FieldText := ⟨text key, decimalInt z, .int z⟩

/-- The spellings of the fields of the object. -/
def fieldTexts : LoaderEvent → List FieldText
  | .alert e =>
      [strField "type" (text "alert"), strField "src_ip" (inetNtop e.srcIp),
        strField "dst_ip" (inetNtop e.dstIp), intField "alert_type" e.alertType.toNat,
        strField "alert_name" (alertTypeToString e.alertType),
        intField "timestamp_ns" e.timestamp.toNat]
  | .flowRate f =>
      [strField "type" (text "flow_rate"), strField "ip" (inetNtop f.ip),
        intField "pps" f.pps.toNat, intField "bytes_per_sec" f.bytesPerSec.toNat,
        intField "total_pkts" f.totalPkts.toNat, intField "total_bytes" f.totalBytes.toNat,
        intField "timestamp" f.timestamp.toInt]

/-- A line without its newline. -/
def body (ev : LoaderEvent) : Text := spellObject (fieldTexts ev)

theorem map_fieldTexts (ev : LoaderEvent) :
    ((fieldTexts ev).map fun f => (f.key, f.value)) = message ev := by
  cases ev with
  | alert e => rfl
  | flowRate f => rfl

theorem fieldTexts_ne_nil (ev : LoaderEvent) : fieldTexts ev ≠ [] := by
  cases ev with
  | alert e => exact List.cons_ne_nil _ _
  | flowRate f => exact List.cons_ne_nil _ _

theorem eventLine_eq_body (ev : LoaderEvent) : eventLine ev = body ev ++ [10] := by
  rw [eventLine_eq_flatten]
  cases ev with
  | alert e =>
      simp only [pieces, body, fieldTexts, strField, intField, spellObject, spellFields,
        FieldText.spell, quoted, decimalInt_natCast, List.flatten_cons, List.append_assoc,
        List.cons_append, List.nil_append]
      rfl
  | flowRate f =>
      simp only [pieces, body, fieldTexts, strField, intField, spellObject, spellFields,
        FieldText.spell, quoted, decimalInt_natCast, List.flatten_cons, List.append_assoc,
        List.cons_append, List.nil_append]
      rfl

/-! ## Characters -/

/-- Characters that stand for themselves in a string and are one byte each. -/
def Simple (s : Text) : Prop := ∀ c ∈ s, c ≠ 34 ∧ c ≠ 92 ∧ 32 ≤ c ∧ c < 127

instance : DecidablePred Simple := fun s => inferInstanceAs (Decidable (∀ c ∈ s, _))

def Printable (t : Text) : Prop := ∀ c ∈ t, 32 ≤ c ∧ c < 127

theorem Simple.plain {s : Text} (simple : Simple s) : Plain s := by
  intro c member
  obtain ⟨notQuote, notSlash, visible, ascii⟩ := simple c member
  exact ⟨notQuote, notSlash, visible, by omega⟩

theorem Simple.printable {s : Text} (simple : Simple s) : Printable s :=
  fun c member => (simple c member).2.2

theorem Printable.append {s t : Text} (first : Printable s) (second : Printable t) :
    Printable (s ++ t) := by
  intro c member
  rcases List.mem_append.mp member with inFirst | inSecond
  · exact first c inFirst
  · exact second c inSecond

theorem Printable.cons {c : ℕ} {t : Text} (here : 32 ≤ c ∧ c < 127) (later : Printable t) :
    Printable (c :: t) := by
  intro d member
  rcases List.mem_cons.mp member with rfl | inRest
  · exact here
  · exact later d inRest

theorem Printable.nil : Printable [] := fun _ member => (nomatch member)

theorem printable_quoted {s : Text} (printable : Printable s) : Printable (quoted s) :=
  .cons (by decide) (printable.append (.cons (by decide) .nil))

theorem simple_inetNtop (addr : UInt32) : Simple (inetNtop addr) := by
  intro c member
  rcases inetNtoa_chars member with digit | rfl
  · have := isDigit_iff.mp digit
    omega
  · decide

theorem simple_alertTypeToString (type : UInt8) : Simple (alertTypeToString type) := by
  rw [alertTypeToString.eq_def]
  split
  · decide
  · decide
  · decide

theorem printable_decimalInt (z : ℤ) : Printable (decimalInt z) := by
  have digits : Printable (decimal z.natAbs) := by
    intro c member
    have := isDigit_iff.mp (isDigit_of_mem_decimal member)
    omega
  rw [decimalInt]
  split
  · exact .cons (by decide) digits
  · exact digits

/-- A field that is read back as its value and whose spelling stays on its
line. -/
structure Sendable (f : FieldText) : Prop where
  ok : f.Ok
  key : Printable f.key
  text : Printable f.text

theorem sendable_strField {key : String} {s : Text} (name : Simple (text key)) (simple : Simple s) :
    Sendable (strField key s) :=
  ⟨⟨name.plain, reads_quoted simple.plain⟩, name.printable, printable_quoted simple.printable⟩

theorem sendable_intField {key : String} {z : ℤ} (name : Simple (text key))
    (small : z.natAbs < 10 ^ 20) : Sendable (intField key z) := by
  have short : (decimal z.natAbs).length ≤ intMaxStrDigits :=
    Nat.le_trans (length_decimal_le (by decide) small) (by decide)
  exact ⟨⟨name.plain, reads_decimalInt short⟩, name.printable, printable_decimalInt z⟩

theorem natAbs_u64_lt (x : UInt64) : (x.toNat : ℤ).natAbs < 10 ^ 20 :=
  Nat.lt_trans x.toNat_lt (by decide)

theorem sendable_fieldTexts (ev : LoaderEvent) : ∀ f ∈ fieldTexts ev, Sendable f := by
  cases ev with
  | alert e =>
      have byte : (e.alertType.toNat : ℤ).natAbs < 10 ^ 20 :=
        Nat.lt_trans e.alertType.toNat_lt (by decide)
      simp only [fieldTexts, List.forall_mem_cons]
      exact ⟨sendable_strField (by decide) (by decide),
        sendable_strField (by decide) (simple_inetNtop _),
        sendable_strField (by decide) (simple_inetNtop _),
        sendable_intField (by decide) byte,
        sendable_strField (by decide) (simple_alertTypeToString _),
        sendable_intField (by decide) (natAbs_u64_lt _), fun _ member => (nomatch member)⟩
  | flowRate f =>
      have time : f.timestamp.toInt.natAbs < 10 ^ 20 :=
        Nat.lt_trans (natAbs_toInt_lt f.timestamp) (by decide)
      simp only [fieldTexts, List.forall_mem_cons]
      exact ⟨sendable_strField (by decide) (by decide),
        sendable_strField (by decide) (simple_inetNtop _),
        sendable_intField (by decide) (natAbs_u64_lt _),
        sendable_intField (by decide) (natAbs_u64_lt _),
        sendable_intField (by decide) (natAbs_u64_lt _),
        sendable_intField (by decide) (natAbs_u64_lt _),
        sendable_intField (by decide) time, fun _ member => (nomatch member)⟩

theorem printable_spellFields {fields : List FieldText} (sendable : ∀ f ∈ fields, Sendable f) :
    Printable (spellFields fields) := by
  induction fields with
  | nil => exact .cons (by decide) .nil
  | cons f rest ih =>
      have here := sendable f List.mem_cons_self
      have spelled : Printable f.spell :=
        (printable_quoted here.key).append (.cons (by decide) here.text)
      cases rest with
      | nil => exact spelled.append (.cons (by decide) .nil)
      | cons g more =>
          exact spelled.append (.cons (by decide)
            (ih fun h member => sendable h (List.mem_cons_of_mem _ member)))

theorem printable_body (ev : LoaderEvent) : Printable (body ev) :=
  .cons (by decide) (printable_spellFields (sendable_fieldTexts ev))

theorem newline_not_mem_body (ev : LoaderEvent) : 10 ∉ body ev := fun member =>
  absurd (printable_body ev 10 member).1 (by decide)

/-! ## What the backend reads -/

theorem getLast?_spellFields (fields : List FieldText) :
    (spellFields fields).getLast? = some 125 := by
  induction fields with
  | nil => rfl
  | cons f rest ih =>
      cases rest with
      | nil => rw [spellFields, List.getLast?_concat]
      | cons g more => rw [spellFields, List.getLast?_append, List.getLast?_cons, ih]; rfl

theorem getLast?_body (ev : LoaderEvent) : (body ev).getLast? = some 125 := by
  rw [body, spellObject, List.getLast?_cons, getLast?_spellFields]
  rfl

theorem strip_body (ev : LoaderEvent) : strip (body ev) = body ev := by
  refine strip_eq_self ?_ ?_
  · rintro c ⟨⟩
    rfl
  · rw [getLast?_body]
    rintro c ⟨⟩
    rfl

/-- The object of a line, wherever a value is expected. -/
theorem feed_body (ev : LoaderEvent) (σ : List Open) :
    feed ⟨.value, σ⟩ (body ev) = attach (.obj (message ev)) σ := by
  rw [body, feed_object (fun f member => (sendable_fieldTexts ev f member).ok)
    (fieldTexts_ne_nil ev), map_fieldTexts]

theorem jsonLoads_body (ev : LoaderEvent) : jsonLoads (body ev) = .ok (.obj (message ev)) := by
  rw [jsonLoads, feed_body]
  rfl

theorem readLine_body (ev : LoaderEvent) :
    readLine jsonLoads (body ev) = some (.obj (message ev)) := by
  have content : body ev ≠ [] := List.cons_ne_nil _ _
  rw [readLine, strip_body, if_neg content, jsonLoads_body]
  rfl

theorem ascii_eventLine (ev : LoaderEvent) : ∀ c ∈ eventLine ev, c < 128 := by
  intro c member
  rw [eventLine_eq_body] at member
  rcases List.mem_append.mp member with inBody | newline
  · have := (printable_body ev c inBody).2
    omega
  · rw [List.mem_singleton.mp newline]
    decide

/-- The messages that a connection hands to its handler when it is given one
line. -/
def decoded (line : Text) : List Json :=
  (receive (succeeding jsonLoads fun _ _ => ()) () [asciiBytes line]).1.calls.map Call.msg

theorem decoded_eventLine (ev : LoaderEvent) : decoded (eventLine ev) = [.obj (message ev)] := by
  have lines : (drain 10 (received [asciiBytes (eventLine ev)])).1 = [body ev] := by
    rw [received, List.flatMap_singleton, decodeIgnore_asciiBytes (ascii_eventLine ev),
      eventLine_eq_body, drain_piece (newline_not_mem_body ev)]
    rfl
  rw [decoded, (receive_session _ _ _).1, lines, messages_handleLines _ _ rfl]
  · rw [List.filterMap_cons_some (readLine_body ev)]
    rfl
  · intro line member
    rw [List.mem_singleton.mp member, readLine_body]
    rfl

/-! ## The round trip -/

theorem inetNtop_injective : Function.Injective inetNtop :=
  inetNtoa_injective.comp Quad.leEquiv.symm.injective

theorem message_injective : Function.Injective message := by
  intro first second same
  cases first with
  | alert e =>
      cases second with
      | alert e' =>
          simp only [message, List.cons.injEq, Prod.mk.injEq, Json.str.injEq, Json.int.injEq,
            Nat.cast_inj, true_and, and_true] at same
          obtain ⟨src, dst, type, -, time⟩ := same
          exact congrArg LoaderEvent.alert (AlertEvent.ext (inetNtop_injective src)
            (inetNtop_injective dst) (UInt8.toNat_inj.mp type) (UInt64.toNat_inj.mp time))
      | flowRate f => exact absurd (congrArg List.length same) (show ¬ 6 = 7 by decide)
  | flowRate f =>
      cases second with
      | alert e => exact absurd (congrArg List.length same) (show ¬ 7 = 6 by decide)
      | flowRate f' =>
          simp only [message, List.cons.injEq, Prod.mk.injEq, Json.str.injEq, Json.int.injEq,
            Nat.cast_inj, true_and, and_true] at same
          obtain ⟨ip, pps, bps, pkts, bytes, time⟩ := same
          exact congrArg LoaderEvent.flowRate (FlowRate.ext (inetNtop_injective ip)
            (UInt64.toNat_inj.mp pps) (UInt64.toNat_inj.mp bps) (UInt64.toNat_inj.mp pkts)
            (UInt64.toNat_inj.mp bytes) (Int64.toInt_inj.mp time))

/-- The line is whole, and it is one line. -/
structure OneLine (ev : LoaderEvent) : Prop where
  fits : (pieces ev).flatten.length < 512
  whole : eventLine ev = (pieces ev).flatten
  ends : ∃ before, 10 ∉ before ∧ eventLine ev = before ++ [10]

theorem oneLine (ev : LoaderEvent) : OneLine ev :=
  ⟨length_pieces_lt ev, eventLine_eq_flatten ev, body ev, newline_not_mem_body ev,
    eventLine_eq_body ev⟩

/-- **Round trip.** A line is one line and is read as one object. An alert goes
to `save_alert` and a flow rate to `save_flow_rate`, with the values that were
printed, and distinct events are read as distinct messages. -/
theorem round_trip (env : Env) :
    (∀ ev, OneLine ev ∧ decoded (eventLine ev) = [.obj (message ev)]) ∧
      (∀ e more, handleAlert (some e) (alertEventSize + more) = some (eventLine (.alert e))) ∧
      (∀ r, reportLine (some r) = some (eventLine (.flowRate r.flowRate))) ∧
      (∀ e, (∀ world, handleXdpMsg env world (.obj (message (.alert e))) =
          saveAlert env (message (.alert e)) world) ∧
        alertFields env (message (.alert e)) =
          .ok ⟨.str (inetNtop e.srcIp), .str (inetNtop e.dstIp), decimal e.alertType.toNat,
            e.timestamp.toNat⟩ ∧
        getField (message (.alert e)) (text "alert_type") = some (.int e.alertType.toNat) ∧
        getField (message (.alert e)) (text "alert_name") = some (.str (
          if e.alertType = 1 then text "syn_flood"
          else if e.alertType = 2 then text "port_scan"
          else text "unknown"))) ∧
      (∀ f, (∀ world, handleXdpMsg env world (.obj (message (.flowRate f))) =
          saveFlowRate env (message (.flowRate f)) world) ∧
        flowFields env (message (.flowRate f)) =
          .ok ⟨.str (inetNtop f.ip), f.pps.toNat, f.bytesPerSec.toNat, f.totalPkts.toNat,
            f.totalBytes.toNat, f.timestamp.toInt⟩) ∧
      (∀ q : Quad, inetNtop q.le = inetNtoa q) ∧ Function.Injective inetNtop ∧
      Function.Injective fun ev => decoded (eventLine ev) := by
  refine ⟨fun ev => ⟨oneLine ev, decoded_eventLine ev⟩, ?_, fun _ => rfl,
    fun e => ⟨fun _ => rfl, ?_, rfl, ?_⟩, fun f => ⟨fun _ => rfl, rfl⟩, ?_,
    inetNtop_injective, ?_⟩
  · intro e more
    exact if_neg (Nat.not_lt.mpr (Nat.le_add_right _ _))
  · exact congrArg (fun type => Except.ok (AlertFields.mk _ _ type _)) (decimalInt_natCast _)
  · show some (Json.str (alertTypeToString e.alertType)) = _
    rw [alertTypeToString_eq]
  · intro q
    rw [inetNtop, Quad.ofLe_le]
  · intro first second same
    simp only [decoded_eventLine, List.cons.injEq, Json.obj.injEq, and_true] at same
    exact message_injective same

end EbpfNids.Wire

import EbpfNids.Library.Ledger
import EbpfNids.Loader.Clients

/-!
# The table of client descriptors

`client_fds` has sixteen entries, negative where the slot is free. The system
hands out the numbers of closed descriptors again, so what the table holds is
compared with a record of the descriptors accepted and closed. In every run the
descriptors opened are the ones that `accept` returned, in order; the entries are
distinct and are the descriptors that are open, each closing is of an open one, and
`cleanup` leaves none (`client_table`).
-/

set_option autoImplicit false

namespace EbpfNids.Loader

open Library Library.Runs Library.Ledger

/-- What `accept` returns: a descriptor, or an error. -/
inductive AcceptResult where
  | fd (n : ℕ)
  | wouldBlock
  | failed
deriving DecidableEq, Repr

/-- The table, with the record of the client descriptors and of the calls of
`send`. -/
structure Server where
  clientFds : Fin maxClients → ℤ
  ledger : List (Entry ℕ)
  offers : List (ℕ × Text)

namespace Server

/-- `init_clients`. -/
def init : Server := ⟨fun _ => -1, [], []⟩

/-- A descriptor that has been accepted goes to the first free slot, or is
closed. -/
def storeClient (cfd : ℕ) (s : Server) : Server :=
  let s : Server := { s with ledger := s.ledger ++ [Entry.opened cfd] }
  match (List.finRange maxClients).find? fun i => decide (s.clientFds i < 0) with
  | some i => { s with clientFds := Function.update s.clientFds i (cfd : ℤ) }
  | none => { s with ledger := s.ledger ++ [Entry.closed cfd] }

/-- One call, with what `accept` returns up to the first error. -/
def acceptClients : List AcceptResult → Server → Server
  | .fd cfd :: rest, s => acceptClients rest (s.storeClient cfd)
  | _, s => s

def closeClient (idx : Fin maxClients) (s : Server) : Server :=
  if 0 ≤ s.clientFds idx then
    { s with
      ledger := s.ledger ++ [Entry.closed (s.clientFds idx).toNat]
      clientFds := Function.update s.clientFds idx (-1) }
  else s

/-- The body of the loop of `broadcast_json_line`. -/
def sendTo (json : Text) (send : Fin maxClients → SendResult) (s : Server)
    (i : Fin maxClients) : Server :=
  if s.clientFds i < 0 then s
  else
    let s := { s with offers := s.offers ++ [((s.clientFds i).toNat, json)] }
    if send i = .failed then s.closeClient i else s

def broadcastJsonLine (json : Text) (send : Fin maxClients → SendResult) (s : Server) : Server :=
  (List.finRange maxClients).foldl (sendTo json send) s

/-- The loop of `cleanup` over the clients. -/
def cleanup (s : Server) : Server :=
  (List.finRange maxClients).foldl (fun s i => s.closeClient i) s

end Server

/-- What the main loop does to the table. -/
inductive ServerEvent where
  | acceptClients (results : List AcceptResult)
  | broadcastJsonLine (json : Text) (send : Fin maxClients → SendResult)

def serverStep (s : Server) : ServerEvent → Server
  | .acceptClients results => s.acceptClients results
  | .broadcastJsonLine json send => s.broadcastJsonLine json send

/-- The descriptors that a call of `accept_clients` gets, up to the first error. -/
def descriptors : List AcceptResult → List ℕ
  | .fd cfd :: rest => cfd :: descriptors rest
  | _ => []

/-- The descriptors that `accept` returns in an event. -/
def ServerEvent.descriptors : ServerEvent → List ℕ
  | .acceptClients results => Loader.descriptors results
  | .broadcastJsonLine _ _ => []

namespace Server

/-- `accept` returns no descriptor that is open. -/
def FreshAccepts : List AcceptResult → Server → Prop
  | .fd cfd :: rest, s => cfd ∉ held s.ledger ∧ FreshAccepts rest (s.storeClient cfd)
  | _, _ => True

/-- The same of every call of a run. -/
def FreshRun (run : List (Server × ServerEvent)) : Prop :=
  ∀ p ∈ run, ∀ results, p.2 = .acceptClients results → FreshAccepts results p.1

/-! ## What is said of a table -/

/-- The entries are distinct, and they are the descriptors that are open. -/
structure Accounted (s : Server) : Prop where
  distinct : ∀ i j, 0 ≤ s.clientFds i → s.clientFds i = s.clientFds j → i = j
  entries : ∀ fd : ℕ, fd ∈ held s.ledger ↔ ∃ i, s.clientFds i = fd
  sound : Sound s.ledger

/-- The table when `accept` has returned some connections and is called again. -/
def afterAccepts (fds : List ℕ) (s : Server) : Server := s.acceptClients (fds.map .fd)

/-- The connection `cfd`, which a call of `accept_clients` gets after `fds`, is closed
at once, and the table is as before. -/
def Refuses (s : Server) (fds : List ℕ) (cfd : ℕ) : Prop :=
  ∀ later, s.acceptClients (fds.map .fd ++ .fd cfd :: later) =
    acceptClients later
      { s.afterAccepts fds with
        ledger := (s.afterAccepts fds).ledger ++ [Entry.opened cfd, Entry.closed cfd] }

/-- The connection gets a slot that is free, and stays open. -/
def Stores (s : Server) (fds : List ℕ) (cfd : ℕ) : Prop :=
  ∃ i, (s.afterAccepts fds).clientFds i < 0 ∧
    ∀ later, s.acceptClients (fds.map .fd ++ .fd cfd :: later) =
      acceptClients later
        { s.afterAccepts fds with
          clientFds := Function.update (s.afterAccepts fds).clientFds i (cfd : ℤ)
          ledger := (s.afterAccepts fds).ledger ++ [Entry.opened cfd] }

/-- The line is offered once to every client, and a slot is freed exactly when it
is taken and its `send` fails. -/
structure Broadcasts (json : Text) (send : Fin maxClients → SendResult) (s : Server) : Prop where
  offered : ∃ fds : List ℕ, (s.broadcastJsonLine json send).offers =
      s.offers ++ fds.map (fun fd => (fd, json)) ∧
    ∀ fd, fds.count fd = if fd ∈ held s.ledger then 1 else 0
  freed : ∀ i, (s.broadcastJsonLine json send).clientFds i =
    if 0 ≤ s.clientFds i ∧ send i = .failed then -1 else s.clientFds i

/-! ## One descriptor -/

theorem accounted_init : Accounted init := by
  refine ⟨fun i j taken => absurd taken (by decide : ¬(0 : ℤ) ≤ -1), fun fd => ?_, .nil⟩
  refine iff_of_false (Finset.notMem_empty fd) ?_
  rintro ⟨i, same⟩
  have : (-1 : ℤ) = fd := same
  omega

/-- **What a new connection can do.** -/
theorem storeClient_cases (s : Server) (cfd : ℕ) :
    (∃ i, s.clientFds i < 0 ∧
      s.storeClient cfd =
        { s with
          clientFds := Function.update s.clientFds i (cfd : ℤ)
          ledger := s.ledger ++ [Entry.opened cfd] }) ∨
    (∀ i, 0 ≤ s.clientFds i) ∧
      s.storeClient cfd =
        { s with ledger := s.ledger ++ [Entry.opened cfd, Entry.closed cfd] } := by
  rw [storeClient]
  dsimp only
  cases free : (List.finRange maxClients).find? fun i => decide (s.clientFds i < 0) with
  | some i =>
      have negative := List.find?_some free
      exact Or.inl ⟨i, of_decide_eq_true negative, rfl⟩
  | none =>
      refine Or.inr ⟨fun i => ?_, by simp⟩
      have taken := List.find?_eq_none.mp free i (List.mem_finRange i)
      rw [decide_eq_true_eq] at taken
      omega

theorem acceptClients_fds (fds : List ℕ) (later : List AcceptResult) (s : Server) :
    s.acceptClients (fds.map .fd ++ later) = acceptClients later (s.afterAccepts fds) := by
  induction fds generalizing s with
  | nil => rfl
  | cons cfd rest ih => exact ih (s.storeClient cfd)

theorem acceptClients_fd (s : Server) (fds : List ℕ) (cfd : ℕ) (later : List AcceptResult) :
    s.acceptClients (fds.map .fd ++ .fd cfd :: later) =
      acceptClients later ((s.afterAccepts fds).storeClient cfd) :=
  acceptClients_fds fds (.fd cfd :: later) s

/-- A connection that finds a free slot gets one. -/
theorem stores_of_free {s : Server} {fds : List ℕ} {i : Fin maxClients}
    (free : (s.afterAccepts fds).clientFds i < 0) (cfd : ℕ) : s.Stores fds cfd := by
  rcases (s.afterAccepts fds).storeClient_cases cfd with ⟨j, there, stored⟩ | ⟨full, -⟩
  · exact ⟨j, there, fun later => by rw [acceptClients_fd, stored]⟩
  · exact absurd (full i) (by omega)

/-- A connection is refused exactly when all slots are taken. -/
theorem refuses_iff (s : Server) (fds : List ℕ) (cfd : ℕ) :
    s.Refuses fds cfd ↔ ∀ i, 0 ≤ (s.afterAccepts fds).clientFds i := by
  constructor
  · intro refused
    rcases (s.afterAccepts fds).storeClient_cases cfd with ⟨i, -, stored⟩ | ⟨full, -⟩
    · have same := refused []
      rw [acceptClients_fd, stored] at same
      have ledgers := congrArg Server.ledger same
      simp [acceptClients] at ledgers
    · exact full
  · intro full later
    rcases (s.afterAccepts fds).storeClient_cases cfd with ⟨i, free, -⟩ | ⟨-, refused⟩
    · exact absurd (full i) (by omega)
    · rw [acceptClients_fd, refused]

theorem Accounted.storeClient {s : Server} (accounted : Accounted s) {cfd : ℕ}
    (fresh : cfd ∉ held s.ledger) : Accounted (s.storeClient cfd) := by
  obtain ⟨distinct, entries, sound⟩ := accounted
  have notThere : ∀ j, s.clientFds j ≠ cfd := fun j same => fresh ((entries cfd).mpr ⟨j, same⟩)
  rcases s.storeClient_cases cfd with ⟨i, free, stored⟩ | ⟨-, refused⟩
  · rw [stored]
    refine ⟨?_, ?_, ?_⟩
    · intro j k taken same
      dsimp only at taken same
      by_cases here : j = i
      · by_cases there : k = i
        · rw [here, there]
        · rw [here, Function.update_self, Function.update_of_ne there] at same
          exact absurd same.symm (notThere k)
      · by_cases there : k = i
        · rw [there, Function.update_self, Function.update_of_ne here] at same
          exact absurd same (notThere j)
        · rw [Function.update_of_ne here, Function.update_of_ne there] at same
          rw [Function.update_of_ne here] at taken
          exact distinct j k taken same
    · intro fd
      dsimp only
      rw [held_opened, Finset.mem_insert, entries]
      constructor
      · rintro (rfl | ⟨j, same⟩)
        · exact ⟨i, Function.update_self ..⟩
        · have other : j ≠ i := by
            rintro rfl
            omega
          exact ⟨j, by rw [Function.update_of_ne other, same]⟩
      · rintro ⟨j, same⟩
        by_cases here : j = i
        · rw [here, Function.update_self] at same
          exact Or.inl (by omega)
        · rw [Function.update_of_ne here] at same
          exact Or.inr ⟨j, same⟩
    · exact .opened sound fresh
  · have held_same : held (s.ledger ++ [Entry.opened cfd, Entry.closed cfd]) = held s.ledger := by
      rw [List.append_cons, held_closed, held_opened, Finset.erase_insert fresh]
    rw [refused]
    refine ⟨distinct, ?_, ?_⟩
    · dsimp only
      rw [held_same]
      exact entries
    · dsimp only
      rw [List.append_cons]
      refine .closed (.opened sound fresh) ?_
      rw [held_opened]
      exact Finset.mem_insert_self _ _

theorem Accounted.closeClient {s : Server} (accounted : Accounted s) (i : Fin maxClients) :
    Accounted (s.closeClient i) := by
  obtain ⟨distinct, entries, sound⟩ := accounted
  rw [Server.closeClient]
  split
  · rename_i taken
    have there : (s.clientFds i).toNat ∈ held s.ledger := by
      rw [entries]
      exact ⟨i, (Int.toNat_of_nonneg taken).symm⟩
    refine ⟨?_, ?_, .closed sound there⟩
    · intro j k open_ same
      dsimp only at open_ same
      by_cases here : j = i
      · rw [here, Function.update_self] at open_
        omega
      · rw [Function.update_of_ne here] at open_ same
        by_cases there : k = i
        · rw [there, Function.update_self] at same
          omega
        · rw [Function.update_of_ne there] at same
          exact distinct j k open_ same
    · intro fd
      dsimp only
      rw [held_closed, Finset.mem_erase, entries]
      constructor
      · rintro ⟨other, j, same⟩
        have different : j ≠ i := by
          rintro rfl
          omega
        exact ⟨j, by rw [Function.update_of_ne different, same]⟩
      · rintro ⟨j, same⟩
        by_cases here : j = i
        · rw [here, Function.update_self] at same
          omega
        · rw [Function.update_of_ne here] at same
          refine ⟨?_, j, same⟩
          rintro rfl
          rw [Int.toNat_of_nonneg taken] at same
          exact here (distinct j i (by omega) same)
  · exact ⟨distinct, entries, sound⟩

/-! ## The loops over the table -/

theorem Accounted.sendTo {s : Server} (accounted : Accounted s) (json : Text)
    (send : Fin maxClients → SendResult) (i : Fin maxClients) :
    Accounted (sendTo json send s i) := by
  have offered : ∀ offers, Accounted { s with offers := offers } :=
    fun _ => ⟨accounted.distinct, accounted.entries, accounted.sound⟩
  rw [Server.sendTo]
  split
  · exact accounted
  · dsimp only
    split
    · exact (offered _).closeClient i
    · exact offered _

theorem Accounted.acceptClients {s : Server} (accounted : Accounted s)
    {results : List AcceptResult} (fresh : FreshAccepts results s) :
    Accounted (s.acceptClients results) := by
  induction results generalizing s with
  | nil => exact accounted
  | cons result rest ih =>
      cases result with
      | fd cfd => exact ih (accounted.storeClient fresh.1) fresh.2
      | wouldBlock => exact accounted
      | failed => exact accounted

theorem Accounted.broadcastJsonLine {s : Server} (accounted : Accounted s) (json : Text)
    (send : Fin maxClients → SendResult) : Accounted (s.broadcastJsonLine json send) :=
  List.foldlRecOn _ _ accounted fun _ before i _ => before.sendTo json send i

theorem Accounted.cleanup {s : Server} (accounted : Accounted s) : Accounted s.cleanup :=
  List.foldlRecOn _ _ accounted fun _ before i _ => before.closeClient i

/-- One turn of the loop of a broadcast. -/
theorem sendTo_eq (json : Text) (send : Fin maxClients → SendResult) (s : Server)
    (i : Fin maxClients) :
    (sendTo json send s i).offers =
        s.offers ++ (if 0 ≤ s.clientFds i then [((s.clientFds i).toNat, json)] else []) ∧
      ∀ j, (sendTo json send s i).clientFds j =
        if j = i ∧ 0 ≤ s.clientFds j ∧ send j = .failed then -1 else s.clientFds j := by
  by_cases free : s.clientFds i < 0
  · rw [sendTo, if_pos free, if_neg (by omega), List.append_nil]
    refine ⟨rfl, fun j => (if_neg ?_).symm⟩
    rintro ⟨rfl, taken, -⟩
    omega
  · have taken : 0 ≤ s.clientFds i := by omega
    rw [sendTo, if_neg free, if_pos taken]
    dsimp only
    by_cases failed : send i = .failed
    · rw [if_pos failed, closeClient, if_pos taken]
      refine ⟨rfl, fun j => ?_⟩
      by_cases here : j = i
      · subst here
        rw [if_pos ⟨rfl, taken, failed⟩]
        exact Function.update_self ..
      · rw [if_neg fun both => here both.1]
        exact Function.update_of_ne here ..
    · rw [if_neg failed]
      refine ⟨rfl, fun j => (if_neg ?_).symm⟩
      rintro ⟨rfl, -, failed'⟩
      exact failed failed'

/-- **Loop lemma.** -/
theorem foldl_sendTo (json : Text) (send : Fin maxClients → SendResult)
    {slots : List (Fin maxClients)} (nodup : slots.Nodup) (s : Server) :
    (slots.foldl (sendTo json send) s).offers =
        s.offers ++ (slots.filter fun i => decide (0 ≤ s.clientFds i)).map
          (fun i => ((s.clientFds i).toNat, json)) ∧
      ∀ j, (slots.foldl (sendTo json send) s).clientFds j =
        if j ∈ slots ∧ 0 ≤ s.clientFds j ∧ send j = .failed then -1 else s.clientFds j := by
  induction slots generalizing s with
  | nil => exact ⟨(List.append_nil _).symm, fun j => (if_neg (by simp)).symm⟩
  | cons i rest ih =>
      obtain ⟨notLater, nodupRest⟩ := List.nodup_cons.mp nodup
      obtain ⟨offersHere, fdsHere⟩ := sendTo_eq json send s i
      obtain ⟨offersLater, fdsLater⟩ := ih nodupRest (sendTo json send s i)
      have same : ∀ j ∈ rest, (sendTo json send s i).clientFds j = s.clientFds j := by
        intro j member
        rw [fdsHere, if_neg]
        rintro ⟨rfl, -⟩
        exact notLater member
      constructor
      · have filtered : (rest.filter fun j =>
            decide (0 ≤ (sendTo json send s i).clientFds j)) =
              rest.filter fun j => decide (0 ≤ s.clientFds j) :=
          List.filter_congr fun j member => by rw [same j member]
        have mapped : (rest.filter fun j => decide (0 ≤ s.clientFds j)).map
            (fun j => (((sendTo json send s i).clientFds j).toNat, json)) =
              (rest.filter fun j => decide (0 ≤ s.clientFds j)).map
                fun j => ((s.clientFds j).toNat, json) :=
          List.map_congr_left fun j member => by rw [same j (List.mem_of_mem_filter member)]
        rw [List.foldl_cons, offersLater, offersHere, filtered, mapped, List.filter_cons]
        by_cases taken : 0 ≤ s.clientFds i
        · simp [taken]
        · simp [taken]
      · intro j
        rw [List.foldl_cons, fdsLater]
        by_cases member : j ∈ rest
        · have other : j ≠ i := by
            rintro rfl
            exact notLater member
          rw [same j member]
          simp [member]
        · rw [if_neg fun both => member both.1, fdsHere]
          simp [member]

/-- The slots that a loop of `close_client` has passed are free. -/
theorem foldl_closeClient (slots : List (Fin maxClients)) (s : Server) (i : Fin maxClients)
    (free : i ∈ slots ∨ s.clientFds i < 0) :
    (slots.foldl (fun s i => s.closeClient i) s).clientFds i < 0 := by
  induction slots generalizing s with
  | nil => exact free.elim (fun member => nomatch member) id
  | cons j rest ih =>
      refine ih (s.closeClient j) ?_
      by_cases here : i = j
      · subst here
        right
        rw [closeClient]
        split
        · dsimp only
          rw [Function.update_self]
          decide
        · omega
      · rcases free with member | negative
        · exact Or.inl (List.mem_of_ne_of_mem here member)
        · right
          rw [closeClient]
          split
          · dsimp only
            rwa [Function.update_of_ne here]
          · exact negative

/-! ## Whole runs -/

theorem Accounted.broadcasts {s : Server} (accounted : Accounted s) (json : Text)
    (send : Fin maxClients → SendResult) : Broadcasts json send s := by
  obtain ⟨offers, fds⟩ := foldl_sendTo json send (List.nodup_finRange maxClients) s
  refine ⟨⟨((List.finRange maxClients).filter fun i => decide (0 ≤ s.clientFds i)).map
    fun i => (s.clientFds i).toNat, ?_, fun fd => ?_⟩, fun i => ?_⟩
  · rw [Server.broadcastJsonLine, offers, List.map_map]
    rfl
  · have nodup : (((List.finRange maxClients).filter fun i => decide (0 ≤ s.clientFds i)).map
        fun i => (s.clientFds i).toNat).Nodup := by
      refine List.Nodup.map_on ?_ ((List.nodup_finRange maxClients).filter _)
      intro i iTaken j jTaken same
      have iNonneg := of_decide_eq_true (List.mem_filter.mp iTaken).2
      have jNonneg := of_decide_eq_true (List.mem_filter.mp jTaken).2
      exact accounted.distinct i j iNonneg (by omega)
    rw [nodup.count]
    refine if_congr ?_ rfl rfl
    rw [accounted.entries, List.mem_map]
    constructor
    · rintro ⟨i, taken, rfl⟩
      have nonneg := of_decide_eq_true (List.mem_filter.mp taken).2
      exact ⟨i, (Int.toNat_of_nonneg nonneg).symm⟩
    · rintro ⟨i, same⟩
      have nonneg : 0 ≤ s.clientFds i := by omega
      exact ⟨i, List.mem_filter.mpr ⟨List.mem_finRange i, decide_eq_true nonneg⟩, by omega⟩
  · rw [Server.broadcastJsonLine, fds]
    simp

/-- **Step lemma.** -/
theorem Accounted.step {s : Server} (accounted : Accounted s) {event : ServerEvent}
    (fresh : ∀ results, event = .acceptClients results → FreshAccepts results s) :
    Accounted (serverStep s event) := by
  cases event with
  | acceptClients results => exact accounted.acceptClients (fresh results rfl)
  | broadcastJsonLine json send => exact accounted.broadcastJsonLine json send

/-! ## What is opened -/

theorem openings_storeClient (s : Server) (cfd : ℕ) :
    openings (s.storeClient cfd).ledger = openings s.ledger ++ [cfd] := by
  rcases s.storeClient_cases cfd with ⟨i, -, stored⟩ | ⟨-, refused⟩
  · simp [stored]
  · simp [refused]

theorem openings_acceptClients (results : List AcceptResult) (s : Server) :
    openings (s.acceptClients results).ledger = openings s.ledger ++ descriptors results := by
  induction results generalizing s with
  | nil => exact (List.append_nil _).symm
  | cons result rest ih =>
      cases result with
      | fd cfd =>
          rw [Server.acceptClients, ih, openings_storeClient, List.append_assoc]
          rfl
      | wouldBlock => exact (List.append_nil _).symm
      | failed => exact (List.append_nil _).symm

theorem openings_closeClient (s : Server) (i : Fin maxClients) :
    openings (s.closeClient i).ledger = openings s.ledger := by
  rw [Server.closeClient]
  split
  · simp
  · rfl

theorem openings_sendTo (json : Text) (send : Fin maxClients → SendResult) (s : Server)
    (i : Fin maxClients) : openings (sendTo json send s i).ledger = openings s.ledger := by
  rw [Server.sendTo]
  split
  · rfl
  · dsimp only
    split
    · rw [openings_closeClient]
    · rfl

theorem openings_broadcastJsonLine (json : Text) (send : Fin maxClients → SendResult)
    (s : Server) : openings (s.broadcastJsonLine json send).ledger = openings s.ledger := by
  refine List.foldlRecOn
    (motive := fun after : Server => openings after.ledger = openings s.ledger)
    _ _ rfl fun before same i _ => ?_
  rw [openings_sendTo, same]

theorem openings_cleanup (s : Server) : openings s.cleanup.ledger = openings s.ledger := by
  refine List.foldlRecOn
    (motive := fun after : Server => openings after.ledger = openings s.ledger)
    _ _ rfl fun before same i _ => ?_
  rw [openings_closeClient, same]

/-- **Run lemma.** What a run opens is what `accept` returned, in order. -/
theorem openings_exec (events : List ServerEvent) (s : Server) :
    openings (exec serverStep s events).ledger =
      openings s.ledger ++ events.flatMap ServerEvent.descriptors := by
  induction events generalizing s with
  | nil => exact (List.append_nil _).symm
  | cons event rest ih =>
      rw [exec_cons, ih, List.flatMap_cons, ← List.append_assoc]
      refine congrArg (· ++ _) ?_
      cases event with
      | acceptClients results => exact openings_acceptClients results s
      | broadcastJsonLine json send =>
          exact (openings_broadcastJsonLine json send s).trans (List.append_nil _).symm

/-! ## The slots without their descriptors -/

/-- The same slots are taken. -/
def Agrees (clients : Clients) (s : Server) : Prop :=
  ∀ i, (clients i).isSome = true ↔ 0 ≤ s.clientFds i

theorem Agrees.storeClient {clients : Clients} {s : Server} (agrees : Agrees clients s)
    (cfd : ℕ) : Agrees (acceptClient clients) (s.storeClient cfd) := by
  have sameFree : (fun i => (clients i).isNone) = fun i => decide (s.clientFds i < 0) := by
    funext i
    have := agrees i
    cases taken : clients i with
    | none =>
        rw [taken] at this
        have free : s.clientFds i < 0 := by simpa using this
        simp [free]
    | some stream =>
        rw [taken] at this
        have there : ¬s.clientFds i < 0 := by simpa using this
        simp [there]
  rw [acceptClient, sameFree, Server.storeClient]
  dsimp only
  cases (List.finRange maxClients).find? fun i => decide (s.clientFds i < 0) with
  | none => exact agrees
  | some j =>
      intro i
      dsimp only
      by_cases here : i = j
      · rw [here, Function.update_self, Function.update_self]
        exact iff_of_true rfl (Int.natCast_nonneg cfd)
      · rw [Function.update_of_ne here, Function.update_of_ne here]
        exact agrees i

/-- How many connections a call of `accept_clients` takes in. -/
def accepted : List AcceptResult → ℕ
  | .fd _ :: rest => accepted rest + 1
  | _ => 0

/-- **Refinement.** The table does with its slots what the model of the clients
without descriptors does. -/
theorem Agrees.acceptClients {clients : Clients} {s : Server} (agrees : Agrees clients s)
    (results : List AcceptResult) :
    Agrees (Loader.acceptClients (accepted results) clients) (s.acceptClients results) := by
  induction results generalizing clients s with
  | nil => exact agrees
  | cons result rest ih =>
      cases result with
      | fd cfd => exact ih (agrees.storeClient cfd)
      | wouldBlock => exact agrees
      | failed => exact agrees

theorem Agrees.broadcastJsonLine {clients : Clients} {s : Server} (agrees : Agrees clients s)
    (json : Text) (send : Fin maxClients → SendResult) :
    Agrees (Loader.broadcastJsonLine json send clients) (s.broadcastJsonLine json send) := by
  intro i
  obtain ⟨-, fds⟩ := foldl_sendTo json send (List.nodup_finRange maxClients) s
  rw [Loader.broadcastJsonLine, Server.broadcastJsonLine, fds]
  have here := agrees i
  cases taken : clients i with
  | none =>
      rw [taken] at here
      have free : ¬0 ≤ s.clientFds i := by simpa using here
      simp [free]
  | some stream =>
      rw [taken] at here
      have there : 0 ≤ s.clientFds i := by simpa using here
      by_cases failed : send i = .failed
      · simp [there, failed]
      · simp [there, failed]

/-- **The client table.** In every run in which `accept` returns no descriptor
that is open: the descriptors opened are the ones that `accept` returned; the entries
are the open descriptors, all distinct, and every descriptor was closed as often as it
was opened but for those; a connection, at any place of a call of `accept_clients`, is
refused exactly when all slots are taken, and gets one of them otherwise; a
broadcast offers the line once to every client and frees the slots whose `send`
fails; and `cleanup` opens none and closes every client that is left. -/
theorem client_table (events : List ServerEvent)
    (fresh : FreshRun (steps serverStep init events)) :
    let s := exec serverStep init events
    openings s.ledger = events.flatMap ServerEvent.descriptors ∧
      Accounted s ∧
      (∀ fd, s.ledger.count (.opened fd) =
        s.ledger.count (.closed fd) + if fd ∈ held s.ledger then 1 else 0) ∧
      (∀ fds cfd, (s.Refuses fds cfd ↔ ∀ i, 0 ≤ (s.afterAccepts fds).clientFds i) ∧
        (¬s.Refuses fds cfd → s.Stores fds cfd)) ∧
      (∀ json send, Broadcasts json send s) ∧
      openings s.cleanup.ledger = events.flatMap ServerEvent.descriptors ∧
      Accounted s.cleanup ∧ (∀ i, s.cleanup.clientFds i < 0) ∧ held s.cleanup.ledger = ∅ ∧
        ∀ fd, s.cleanup.ledger.count (.opened fd) = s.cleanup.ledger.count (.closed fd) := by
  have accounted : Accounted (exec serverStep init events) :=
    exec_invariant accounted_init fun p member before => before.step (fresh p member)
  have free : ∀ i, (exec serverStep init events).cleanup.clientFds i < 0 :=
    fun i => foldl_closeClient _ _ i (Or.inl (List.mem_finRange i))
  have none : held (exec serverStep init events).cleanup.ledger = ∅ := by
    rw [Finset.eq_empty_iff_forall_notMem]
    intro fd open_
    obtain ⟨i, same⟩ := (accounted.cleanup.entries fd).mp open_
    have := free i
    omega
  have opened := openings_exec events init
  refine ⟨opened, accounted, accounted.sound.balance,
    fun fds cfd => ⟨refuses_iff _ fds cfd, fun stored => ?_⟩,
    fun json send => accounted.broadcasts json send, (openings_cleanup _).trans opened,
    accounted.cleanup, free, none, fun fd => ?_⟩
  · rw [refuses_iff, not_forall] at stored
    obtain ⟨i, free⟩ := stored
    exact stores_of_free (lt_of_not_ge free) cfd
  · rw [accounted.cleanup.sound.balance fd, none]
    simp

/-- Two clients, a broadcast that loses the first one, and a third client that is
given its number again. -/
def reusedNumber : List ServerEvent :=
  [.acceptClients [.fd 7, .fd 8, .wouldBlock],
    .broadcastJsonLine [] fun i => if i = 0 then .failed else .sent 1,
    .acceptClients [.fd 7, .failed]]

theorem client_table_reused :
    openings (exec serverStep init reusedNumber).ledger = [7, 8, 7] ∧
      Accounted (exec serverStep init reusedNumber) ∧
      held (exec serverStep init reusedNumber).cleanup.ledger = ∅ := by
  have whole := client_table reusedNumber (by
    intro p member results same
    simp only [reusedNumber, steps_cons, steps_nil, List.mem_cons, List.not_mem_nil,
      or_false] at member
    rcases member with rfl | rfl | rfl
    · cases same
      exact ⟨by decide +kernel, by decide +kernel, trivial⟩
    · cases same
    · cases same
      exact ⟨by decide +kernel, trivial⟩)
  exact ⟨whole.1, whole.2.1, whole.2.2.2.2.2.2.2.2.1⟩

end Server

end EbpfNids.Loader

/-
  How many clients a server takes (`tcp_new_connection`, `execute_program`, `conn_free`).

      /** Number of clients connected. MAX_NUM_CLIENTS can be connected. */
      static int num_connected = 0;

  `tcp_new_connection` counts a client when it comes, and nothing counts it out: neither `conn_free`
  nor `delete_all_connections` touches the counter, so it is the number of clients there have ever
  been.  `execute_program` takes the place of a program's output in `events` from the counter, and
  `poll` the number of places.

  Two results.  What is right in every run: no two programs share a place, and every place is one
  that `poll` looks at (`slots_of_run`).  What is right only as long as nobody is freed: the counter
  is the number of clients, and a client is refused when the server is full (`admits_iff`).
-/
import Ctcp.ConnTable

set_option linter.unusedVariables false

namespace Ctcp

open Runs BackLinked

/-! ## Places in `events` -/

/-- `NUM_POLL` (`ctcp_sys_internal.h`). -/
def numPoll : Nat := 3

/-- `NUM_POLL + num_connected - 1`, the `id` of `execute_program`. -/
def pollSlot (numConnected : Nat) : Nat := numPoll + numConnected - 1

/-- The server, and the places of its programs' output: a connection and its `id`, the most recent
    first. -/
structure Admission where
  server : Server
  slots : List (Nat × Nat)

/-- A server that has just started. -/
def Admission.init : Admission := ⟨Server.init, []⟩

/-- `serve`, with `execute_program`; when a connection is freed its place is no longer one of a
    live connection. -/
def attend (runProgram : Bool) (s : Admission) : TableOp → Admission
  | .newClient conn =>
    { server := serve s.server (.newClient conn)
      slots :=
        if s.server.table.mem.heap conn = none ∧ s.server.table.numConnected < maxNumClients ∧
            runProgram = true then
          (conn, pollSlot (s.server.table.numConnected + 1)) :: s.slots
        else s.slots }
  | .remove conn => { s with server := serve s.server (.remove conn) }
  | .deleteAll =>
    { server := serve s.server .deleteAll
      slots := s.slots.filter fun slot => slot.1 ∈ addrs (serve s.server .deleteAll).expected }

/-- `tcp_new_connection` returns `NULL`: it leaves everything as it was. -/
def Refuses (table : ConnTable) : Prop := ∀ conn, tcpNewConnection table conn = table

/-- No two programs share a place, and the places are those of `poll`. -/
structure SlotsApart (s : Admission) : Prop where
  distinct : (s.slots.map Prod.snd).Nodup
  polled : ∀ id ∈ s.slots.map Prod.snd,
    numPoll ≤ id ∧ id < numPoll + s.server.table.numConnected
  bound : s.server.table.numConnected ≤ maxNumClients

/-- **The counter counts the live clients**: it is their number, a client is refused exactly when
    `MAX_NUM_CLIENTS` are live, and the programs of the live ones, if any are run, have a place each
    below `NUM_POLL + MAX_NUM_CLIENTS`. -/
structure Admits (runProgram : Bool) (s : Admission) : Prop where
  counts : s.server.table.numConnected = s.server.expected.length
  refuses : Refuses s.server.table ↔ s.server.expected.length = maxNumClients
  covered : s.slots.map Prod.fst = if runProgram = true then addrs s.server.expected else []
  distinct : (s.slots.map Prod.snd).Nodup
  below : ∀ id ∈ s.slots.map Prod.snd, numPoll ≤ id ∧ id < numPoll + maxNumClients

/-- A pass frees nobody. -/
def NobodyFreed (s : Admission) (op : TableOp) : Prop :=
  op = .deleteAll → ∀ x ∈ s.server.expected, x.2.deleteMe = false

instance (s : Admission) (op : TableOp) : Decidable (NobodyFreed s op) := by
  unfold NobodyFreed
  infer_instance

/-! ## The counter only grows -/

theorem numConnected_connAdd (table : ConnTable) (conn : Nat) :
    (connAdd table conn).numConnected = table.numConnected := by
  unfold connAdd
  split <;> rfl

theorem numConnected_tcpNewConnection (table : ConnTable) (conn : Nat) :
    (tcpNewConnection table conn).numConnected =
      if table.numConnected ≥ maxNumClients then table.numConnected
      else table.numConnected + 1 := by
  unfold tcpNewConnection
  split
  · rfl
  · exact numConnected_connAdd _ conn

theorem numConnected_connRemove (table : ConnTable) (conn : Nat) :
    (connRemove table conn).numConnected = table.numConnected := by
  unfold connRemove
  split <;> rfl

theorem numConnected_storePrev (table : ConnTable) (prev : Link Nat) (next : Option Nat) :
    (storePrev table prev next).numConnected = table.numConnected := by
  unfold storePrev
  split
  · rfl
  · split <;> rfl

theorem numConnected_connFree (table : ConnTable) (conn : Nat) :
    (connFree table conn).numConnected = table.numConnected := by
  have hclear : ∀ table, (clearHead table conn).numConnected = table.numConnected := by
    intro table
    unfold clearHead
    split <;> rfl
  unfold connFree
  split
  · rfl
  · split
    · rfl
    · show (clearHead _ conn).numConnected = _
      rw [hclear, numConnected_storePrev]

theorem numConnected_deleteLoop (fuel : Nat) (table : ConnTable) (p : Option Nat) :
    (deleteLoop fuel table p).numConnected = table.numConnected := by
  induction fuel generalizing table p with
  | zero => cases p <;> rfl
  | succ fuel ih =>
    cases p with
    | none => rfl
    | some conn =>
      simp only [deleteLoop]
      split
      · rfl
      · rw [ih]
        split
        · exact numConnected_connFree table conn
        · rfl

/-- **What an operation makes of the counter**: it goes up with a client that is taken, and nothing
    makes it go down. -/
theorem numConnected_attend (runProgram : Bool) (s : Admission) (op : TableOp) :
    (∃ conn, op = .newClient conn ∧ s.server.table.mem.heap conn = none ∧
      s.server.table.numConnected < maxNumClients ∧
      (attend runProgram s op).server.table.numConnected = s.server.table.numConnected + 1) ∨
    (∀ conn, op = .newClient conn → s.server.table.mem.heap conn = none →
        ¬ s.server.table.numConnected < maxNumClients) ∧
      (attend runProgram s op).server.table.numConnected = s.server.table.numConnected := by
  cases op with
  | newClient conn =>
    by_cases hfresh : s.server.table.mem.heap conn = none
    · have hcount : (attend runProgram s (.newClient conn)).server.table.numConnected
          = (tcpNewConnection s.server.table conn).numConnected := by
        simp only [attend, serve, if_pos hfresh]
      rw [hcount, numConnected_tcpNewConnection]
      by_cases hfull : s.server.table.numConnected ≥ maxNumClients
      · refine Or.inr ⟨?_, if_pos hfull⟩
        intro conn' hop hfresh'
        omega
      · refine Or.inl ⟨conn, rfl, hfresh, by omega, if_neg hfull⟩
    · refine Or.inr ⟨?_, ?_⟩
      · rintro conn' hop hfresh'
        obtain rfl := TableOp.newClient.inj hop
        exact absurd hfresh' hfresh
      · simp only [attend, serve, if_neg hfresh]
  | remove conn =>
    refine Or.inr ⟨?_, numConnected_connRemove s.server.table conn⟩
    intro conn' hop
    cases hop
  | deleteAll =>
    refine Or.inr ⟨?_, numConnected_deleteLoop maxNumClients s.server.table _⟩
    intro conn' hop
    cases hop

/-- What the programs' places become. -/
theorem slots_attend (runProgram : Bool) (s : Admission) (op : TableOp) :
    (attend runProgram s op).slots.Sublist s.slots ∨
      ∃ conn, (attend runProgram s op).slots
          = (conn, pollSlot (s.server.table.numConnected + 1)) :: s.slots ∧
        (attend runProgram s op).server.table.numConnected = s.server.table.numConnected + 1 := by
  cases op with
  | newClient conn =>
    rcases numConnected_attend runProgram s (.newClient conn) with
      ⟨conn', hop, hfresh, hroom, hcount⟩ | ⟨hfull, -⟩
    · obtain rfl := TableOp.newClient.inj hop
      cases hrun : runProgram with
      | false => exact Or.inl (by simp [attend])
      | true =>
        rw [hrun] at hcount
        exact Or.inr ⟨conn, if_pos ⟨hfresh, hroom, rfl⟩, hcount⟩
    · refine Or.inl ?_
      have hsame : (attend runProgram s (.newClient conn)).slots = s.slots :=
        if_neg fun h => hfull conn rfl h.1 h.2.1
      exact hsame ▸ List.Sublist.refl s.slots
  | remove conn => exact Or.inl (List.Sublist.refl _)
  | deleteAll => exact Or.inl List.filter_sublist

/-! ## The places are apart in every run -/

theorem slotsApart_init : SlotsApart Admission.init :=
  ⟨List.nodup_nil, fun id hid => absurd hid List.not_mem_nil, Nat.zero_le _⟩

theorem slotsApart_attend (runProgram : Bool) (s : Admission) (op : TableOp) (h : SlotsApart s) :
    SlotsApart (attend runProgram s op) := by
  have hbound := h.bound
  have hgrows : s.server.table.numConnected ≤
      (attend runProgram s op).server.table.numConnected ∧
      (attend runProgram s op).server.table.numConnected ≤ maxNumClients := by
    rcases numConnected_attend runProgram s op with ⟨-, -, -, hroom, hcount⟩ | ⟨-, hcount⟩
    · omega
    · omega
  obtain ⟨hgrows, hmax⟩ := hgrows
  have hold : ∀ id ∈ s.slots.map Prod.snd, numPoll ≤ id ∧
      id < numPoll + (attend runProgram s op).server.table.numConnected := by
    intro id hid
    obtain ⟨hlow, hhigh⟩ := h.polled id hid
    exact ⟨hlow, by omega⟩
  rcases slots_attend runProgram s op with hsub | ⟨conn, hslots, hcount⟩
  · have hmap := hsub.map Prod.snd
    exact ⟨hmap.nodup h.distinct, fun id hid => hold id (hmap.subset hid), hmax⟩
  · -- the new place is the one behind all the others
    have hslot : pollSlot (s.server.table.numConnected + 1)
        = numPoll + s.server.table.numConnected := rfl
    rw [hslot] at hslots
    refine ⟨?_, ?_, hmax⟩
    · rw [hslots]
      refine List.nodup_cons.mpr ⟨?_, h.distinct⟩
      intro hin
      have hlt := (h.polled _ hin).2
      exact Nat.lt_irrefl _ hlt
    · rw [hslots]
      intro id hid
      rcases List.mem_cons.mp hid with rfl | hid
      · show numPoll ≤ numPoll + s.server.table.numConnected ∧
          numPoll + s.server.table.numConnected
            < numPoll + (attend runProgram s op).server.table.numConnected
        omega
      · exact hold id hid

/-- **Every run**: the programs' places differ, and lie below `NUM_POLL + num_connected`, which is
    at most `NUM_POLL + MAX_NUM_CLIENTS`. -/
theorem slots_of_run (runProgram : Bool) (ops : List TableOp) :
    SlotsApart (run (attend runProgram) Admission.init ops) :=
  run_invariant (fun s op h => slotsApart_attend runProgram s op h) slotsApart_init

/-- **A server that is full stays full**, whoever leaves. -/
theorem full_for_ever (runProgram : Bool) (s : Admission) (ops : List TableOp)
    (hfull : s.server.table.numConnected = maxNumClients) :
    Refuses (run (attend runProgram) s ops).server.table := by
  -- nothing takes the counter down, and no client takes it up any more
  have hstays : (run (attend runProgram) s ops).server.table.numConnected = maxNumClients := by
    refine run_invariant (I := fun t : Admission =>
      t.server.table.numConnected = maxNumClients) ?_ hfull
    intro t op ht
    rcases numConnected_attend runProgram t op with ⟨-, -, -, hroom, -⟩ | ⟨-, hcount⟩
    · omega
    · exact hcount.trans ht
  intro conn
  exact if_pos (Nat.le_of_eq hstays.symm)

/-! ## While nobody is freed -/

theorem refuses_iff (table : ConnTable) :
    Refuses table ↔ table.numConnected ≥ maxNumClients := by
  constructor
  · intro h
    have hcount := numConnected_tcpNewConnection table 0
    rw [h 0] at hcount
    split at hcount
    · assumption
    · omega
  · intro hfull conn
    exact if_pos hfull

/-- What is known as long as nobody has been freed. -/
structure AdmissionInv (runProgram : Bool) (s : Admission) : Prop where
  table : TableInv s.server
  counts : s.server.table.numConnected = s.server.expected.length
  covered : s.slots.map Prod.fst = if runProgram = true then addrs s.server.expected else []
  apart : SlotsApart s

theorem admissionInv_init (runProgram : Bool) : AdmissionInv runProgram Admission.init where
  table := tableInv_init
  counts := rfl
  covered := by cases runProgram <;> rfl
  apart := slotsApart_init

theorem AdmissionInv.admits {runProgram : Bool} {s : Admission} (h : AdmissionInv runProgram s) :
    Admits runProgram s where
  counts := h.counts
  refuses := by
    rw [refuses_iff, h.counts]
    have hbound := h.apart.bound
    rw [h.counts] at hbound
    omega
  covered := h.covered
  distinct := h.apart.distinct
  below := by
    intro id hid
    obtain ⟨hlow, hhigh⟩ := h.apart.polled id hid
    have hbound := h.apart.bound
    omega

/-- Nobody is freed: in particular not the head of the list. -/
theorem headStays_of_nobodyFreed {s : Admission} {op : TableOp} (h : TableInv s.server)
    (hnobody : NobodyFreed s op) : HeadStays s.server op := by
  intro hop conn node hhead hnode
  have hall := hnobody hop
  generalize s.server = server at h hhead hnode hall
  obtain ⟨table, expected⟩ := server
  have hrep := h.rep
  cases expected with
  | nil =>
    rw [show table.mem.head = none from hrep.head] at hhead
    cases hhead
  | cons x rest =>
    obtain ⟨a, v⟩ := x
    have hfirst : table.mem.head = some a := hrep.head
    have hseg : table.mem.heap a = some ⟨first rest none, .head, v⟩ := hrep.seg.1
    obtain rfl := Option.some.inj (hfirst.symm.trans hhead)
    obtain rfl := Option.some.inj (hseg.symm.trans hnode)
    exact hall (a, v) List.mem_cons_self

theorem tableInv_attend {runProgram : Bool} {s : Admission} {op : TableOp}
    (h : TableInv s.server) (hnobody : NobodyFreed s op) :
    TableInv (attend runProgram s op).server := by
  have hserve := tableInv_serve h (headStays_of_nobodyFreed h hnobody)
  cases op <;> exact hserve

section Step

variable {runProgram : Bool} {s : Admission}

/-- A client that is taken. -/
theorem admissionInv_taken {conn : Nat} (h : AdmissionInv runProgram s)
    (hfresh : s.server.table.mem.heap conn = none)
    (hroom : s.server.table.numConnected < maxNumClients) :
    AdmissionInv runProgram (attend runProgram s (.newClient conn)) := by
  have hexpected : (attend runProgram s (.newClient conn)).server.expected
      = (conn, Conn.zero) :: s.server.expected := by
    simp only [attend, serve, if_pos hfresh]
    exact if_neg (Nat.not_le_of_lt hroom)
  have hcount : (attend runProgram s (.newClient conn)).server.table.numConnected
      = s.server.table.numConnected + 1 := by
    rcases numConnected_attend runProgram s (.newClient conn) with
      ⟨-, -, -, -, hcount⟩ | ⟨hfull, -⟩
    · exact hcount
    · exact absurd hroom (hfull conn rfl hfresh)
  have hnobody : NobodyFreed s (.newClient conn) := by
    intro hop
    cases hop
  refine ⟨tableInv_attend h.table hnobody, ?_, ?_, slotsApart_attend runProgram s _ h.apart⟩
  · rw [hcount, hexpected, h.counts]
    rfl
  · rw [hexpected]
    have hcovered := h.covered
    cases runProgram with
    | false =>
      rw [show (attend false s (.newClient conn)).slots = s.slots by simp [attend]]
      exact hcovered
    | true =>
      have hslots : (attend true s (.newClient conn)).slots
          = (conn, pollSlot (s.server.table.numConnected + 1)) :: s.slots :=
        if_pos ⟨hfresh, hroom, rfl⟩
      rw [hslots]
      exact congrArg (conn :: ·) hcovered

/-- A client that is refused, or that `calloc` has no address for. -/
theorem attend_refused {conn : Nat}
    (hrefused : ¬ (s.server.table.mem.heap conn = none ∧
      s.server.table.numConnected < maxNumClients)) :
    attend runProgram s (.newClient conn) = s := by
  have hserver : serve s.server (.newClient conn) = s.server := by
    simp only [serve]
    split
    · rename_i hfresh
      have hfull : s.server.table.numConnected ≥ maxNumClients :=
        Nat.le_of_not_lt fun hroom => hrefused ⟨hfresh, hroom⟩
      rw [if_pos hfull, show tcpNewConnection s.server.table conn = s.server.table from
        if_pos hfull]
    · rfl
  have hslots : (attend runProgram s (.newClient conn)).slots = s.slots :=
    if_neg fun hall => hrefused ⟨hall.1, hall.2.1⟩
  show Admission.mk (serve s.server (.newClient conn))
    (attend runProgram s (.newClient conn)).slots = s
  rw [hserver, hslots]

/-- Marking changes no address. -/
theorem addrs_map_mark (conn : Nat) (l : List (Nat × Conn)) :
    addrs (l.map (mark conn)) = addrs l := by
  show (l.map (mark conn)).map Prod.fst = l.map Prod.fst
  rw [List.map_map]
  refine List.map_congr_left ?_
  intro x hx
  show (mark conn x).1 = x.1
  unfold mark
  split <;> rfl

theorem admissionInv_remove (h : AdmissionInv runProgram s) (conn : Nat) :
    AdmissionInv runProgram (attend runProgram s (.remove conn)) := by
  have hnobody : NobodyFreed s (.remove conn) := by
    intro hop
    cases hop
  refine ⟨tableInv_attend h.table hnobody, ?_, ?_, slotsApart_attend runProgram s _ h.apart⟩
  · show (connRemove s.server.table conn).numConnected = (s.server.expected.map _).length
    rw [numConnected_connRemove, List.length_map]
    exact h.counts
  · show s.slots.map Prod.fst
      = if runProgram = true then addrs (s.server.expected.map (mark conn)) else []
    rw [addrs_map_mark]
    exact h.covered

/-- A pass that frees nobody changes neither list. -/
theorem admissionInv_deleteAll (h : AdmissionInv runProgram s)
    (hnobody : NobodyFreed s .deleteAll) :
    AdmissionInv runProgram (attend runProgram s .deleteAll) := by
  have hsame : (serve s.server .deleteAll).expected = s.server.expected := by
    refine List.filter_eq_self.mpr ?_
    intro x hx
    simp [hnobody rfl x hx]
  have hslots : (attend runProgram s .deleteAll).slots = s.slots := by
    refine List.filter_eq_self.mpr ?_
    intro slot hslot
    have hin : slot.1 ∈ s.slots.map Prod.fst := List.mem_map_of_mem hslot
    rw [h.covered] at hin
    split at hin
    · rw [hsame]
      exact decide_eq_true hin
    · exact absurd hin List.not_mem_nil
  refine ⟨tableInv_attend h.table hnobody, ?_, ?_, slotsApart_attend runProgram s _ h.apart⟩
  · show (deleteAllConnections s.server.table).numConnected
      = (serve s.server .deleteAll).expected.length
    rw [hsame, ← h.counts]
    exact numConnected_deleteLoop maxNumClients s.server.table s.server.table.mem.head
  · rw [hslots, h.covered]
    show _ = if runProgram = true then addrs (serve s.server .deleteAll).expected else []
    rw [hsame]

end Step

theorem admissionInv_attend {runProgram : Bool} {s : Admission} {op : TableOp}
    (h : AdmissionInv runProgram s) (hnobody : NobodyFreed s op) :
    AdmissionInv runProgram (attend runProgram s op) := by
  cases op with
  | newClient conn =>
    -- the model's `newClient` is told an address; `calloc` gives only free ones
    by_cases htaken : s.server.table.mem.heap conn = none ∧
        s.server.table.numConnected < maxNumClients
    · exact admissionInv_taken h htaken.1 htaken.2
    · rw [attend_refused htaken]
      exact h
  | remove conn => exact admissionInv_remove h conn
  | deleteAll => exact admissionInv_deleteAll h hnobody

/-- A pass that frees somebody leaves the counter too high. -/
theorem nobodyFreed_of_admits {runProgram : Bool} {s : Admission} {op : TableOp}
    (h : AdmissionInv runProgram s) (hadmits : Admits runProgram (attend runProgram s op)) :
    NobodyFreed s op := by
  rintro rfl x hx
  have hcounts : (deleteLoop maxNumClients s.server.table s.server.table.mem.head).numConnected
      = (s.server.expected.filter fun x => !x.2.deleteMe).length := hadmits.counts
  rw [numConnected_deleteLoop, h.counts] at hcounts
  -- the counter is the old length: equal to the new one only if the filter keeps all
  have hall := List.length_filter_eq_length_iff.mp hcounts.symm
  simpa using hall x hx

/-- **The counter counts the live clients in exactly the runs in which nobody is ever freed.** -/
theorem admits_iff (runProgram : Bool) (ops : List TableOp) :
    Along (attend runProgram) (fun s op => Admits runProgram (attend runProgram s op))
        Admission.init ops ↔
      Along (attend runProgram) NobodyFreed Admission.init ops := by
  refine along_iff_of_invariant ?_ ?_ (admissionInv_init runProgram)
  · intro s op h hadmits
    exact admissionInv_attend h (nobodyFreed_of_admits h hadmits)
  · intro s op h
    exact ⟨nobodyFreed_of_admits h, fun hnobody => (admissionInv_attend h hnobody).admits⟩

/-- The older of two clients leaves, nine times over: one is left, no pointer has gone astray, and
    the next one is refused.  The counter is wrong from the first that leaves. -/
theorem everyone_refused :
    let start : List TableOp := [.newClient 1, .newClient 2, .remove 1, .deleteAll]
    let round : List TableOp := [.newClient 1, .remove 2, .deleteAll, .newClient 2, .remove 1,
      .deleteAll]
    let s := run (attend true) Admission.init (start ++ (List.replicate 4 round).flatten)
    addrs s.server.expected = [2] ∧ s.server.table.wild = false ∧ Refuses s.server.table ∧
      ¬ Along (attend true) (fun s op => Admits true (attend true s op)) Admission.init start := by
  intro start round s
  have hfull : s.server.table.numConnected ≥ maxNumClients := by decide
  refine ⟨by decide, by decide, (refuses_iff _).mpr hfull, ?_⟩
  rintro ⟨-, -, -, hadmits, -⟩
  exact absurd hadmits.counts (by decide)

end Ctcp

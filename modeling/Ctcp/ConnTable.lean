/-
  The server's table of connections (`ctcp_sys_internal.c`).

  `config->connections` is an intrusive list with back links, like `state_list`, but `conn_add` does
  not set the back link of a new connection to the head of the list:

      conn_t *conn_list = get_connections();
      ...
      conn->prev = &conn_list;

  is the address of a local variable.  A connection that is freed while it is the head of the list
  writes through that address, and `conn_free` then sets `config->connections` to `NULL`, whatever
  follows.  `tableSound_iff`: the table holds exactly the connections it should, and nothing is
  written outside of it, in exactly the runs in which the head is never freed.

  The library's `Link.head` stands here for the address of that local variable, and `Mem.head` for
  `config->connections`.  `num_connected` is never decremented, so a server takes at most
  `MAX_NUM_CLIENTS` clients in all; those it refuses are not added.
-/
import Ctcp.State
import Ctcp.Lib.Runs
import Ctcp.Lib.BackLinked

set_option linter.unusedVariables false

namespace Ctcp

open Runs BackLinked

/-! ## The table -/

/-- `MAX_NUM_CLIENTS` (`ctcp_sys_internal.h`). -/
def maxNumClients : Nat := 10

/-- The connections of a server. -/
structure ConnTable where
  mem : Mem Nat Conn
  numConnected : Nat
  /-- A pointer that refers to nothing alive was followed, or a loop did not end. -/
  wild : Bool

/-- What `calloc` returns. -/
def Conn.zero : Conn := ⟨false, false, false⟩

/-- `conn_add`, from `tcp_new_connection`; the new connection is at the address `conn`. -/
def connAdd (table : ConnTable) (conn : Nat) : ConnTable :=
  match table.mem.pushFront conn Conn.zero with
  | some mem => { table with mem := mem }
  | none => { table with wild := true }

/-- `tcp_new_connection`, as far as the table is concerned. -/
def tcpNewConnection (table : ConnTable) (conn : Nat) : ConnTable :=
  if table.numConnected ≥ maxNumClients then table
  else connAdd { table with numConnected := table.numConnected + 1 } conn

/-- `conn_remove`. -/
def connRemove (table : ConnTable) (conn : Nat) : ConnTable :=
  match table.mem.heap conn with
  | some node =>
    { table with mem := table.mem.write conn { node with val.deleteMe := true } }
  | none => table

/-- `*conn->prev = conn->next`.  The local variable of `conn_add` is gone. -/
def storePrev (table : ConnTable) (prev : Link Nat) (next : Option Nat) : ConnTable :=
  match prev with
  | .head => { table with wild := true }
  | .nextOf a =>
    match table.mem.store (.nextOf a) next with
    | some mem => { table with mem := mem }
    | none => { table with wild := true }

/-- `if (conn == get_connections()) config->connections = NULL`. -/
def clearHead (table : ConnTable) (conn : Nat) : ConnTable :=
  if table.mem.head = some conn then { table with mem.head := none } else table

/-- `conn_free`, without the queue and the pipes. -/
def connFree (table : ConnTable) (conn : Nat) : ConnTable :=
  match table.mem.heap conn with
  | none => { table with wild := true }
  | some node =>
    match table.mem.setPrev node.next node.prev with
    | none => { table with wild := true }
    | some mem =>
      let table := clearHead (storePrev { table with mem := mem } node.prev node.next) conn
      { table with mem := table.mem.free conn }

/-- The loop of `delete_all_connections`, with fuel for one iteration each. -/
def deleteLoop : Nat → ConnTable → Option Nat → ConnTable
  | _, table, none => table
  | 0, table, some _ => { table with wild := true }
  | fuel + 1, table, some conn =>
    match table.mem.heap conn with
    | none => { table with wild := true }
    | some node =>
      deleteLoop fuel (if node.val.deleteMe then connFree table conn else table) node.next

/-- `delete_all_connections`.  No table has more than `MAX_NUM_CLIENTS` connections. -/
def deleteAllConnections (table : ConnTable) : ConnTable :=
  deleteLoop maxNumClients table table.mem.head

/-! ## Runs, and what they should do -/

/-- What happens to the table. -/
inductive TableOp where
  /-- A SYN arrives; `calloc` returns this address. -/
  | newClient (conn : Nat)
  | remove (conn : Nat)
  | deleteAll
  deriving DecidableEq, Repr

/-- The table, and the connections it should hold: those added and not yet deleted, the most recent
    first. -/
structure Server where
  table : ConnTable
  expected : List (Nat × Conn)

/-- A server without clients. -/
def Server.init : Server := ⟨⟨Mem.empty, 0, false⟩, []⟩

/-- Mark a connection for removal. -/
def mark (conn : Nat) (x : Nat × Conn) : Nat × Conn :=
  if x.1 = conn then (x.1, { x.2 with deleteMe := true }) else x

/-- One operation.  `calloc` does not return an address that is in use. -/
def serve (s : Server) : TableOp → Server
  | .newClient conn =>
    if s.table.mem.heap conn = none then
      { table := tcpNewConnection s.table conn
        expected :=
          if s.table.numConnected ≥ maxNumClients then s.expected
          else (conn, Conn.zero) :: s.expected }
    else s
  | .remove conn =>
    { table := connRemove s.table conn
      expected := s.expected.map (mark conn) }
  | .deleteAll =>
    { table := deleteAllConnections s.table
      expected := s.expected.filter fun x => !x.2.deleteMe }

/-- Following `next` from the pointer meets exactly these connections. -/
def Linked (mem : Mem Nat Conn) : Option Nat → List Nat → Prop
  | p, [] => p = none
  | p, conn :: conns =>
    p = some conn ∧ ∃ node, mem.heap conn = some node ∧ Linked mem node.next conns

/-- **Nobody is lost**: the table holds the connections it should, each once, and no write has gone
    astray. -/
structure TableSound (s : Server) : Prop where
  linked : Linked s.table.mem s.table.mem.head (addrs s.expected)
  nodup : (addrs s.expected).Nodup
  safe : s.table.wild = false

/-- A pass does not free the head of the list. -/
def HeadStays (s : Server) (op : TableOp) : Prop :=
  op = .deleteAll → ∀ conn node, s.table.mem.head = some conn →
    s.table.mem.heap conn = some node → node.val.deleteMe = false

/-! ## Adding and marking -/

/-- What is known as long as nobody has been lost. -/
structure TableInv (s : Server) : Prop where
  rep : Rep s.table.mem s.expected
  safe : s.table.wild = false
  length : s.expected.length ≤ s.table.numConnected
  bound : s.table.numConnected ≤ maxNumClients

theorem tableInv_init : TableInv Server.init := ⟨rep_empty, rfl, Nat.le_refl _, Nat.zero_le _⟩

theorem linked_of_seg {mem : Mem Nat Conn} {link : Link Nat} {l : List (Nat × Conn)}
    (h : Seg mem link l none) : Linked mem (first l none) (addrs l) := by
  induction l generalizing link with
  | nil => rfl
  | cons x rest ih =>
    obtain ⟨hnode, hrest⟩ := h
    exact ⟨rfl, _, hnode, ih hrest⟩

theorem TableInv.sound {s : Server} (h : TableInv s) : TableSound s where
  linked := by
    rw [h.rep.head]
    exact linked_of_seg h.rep.seg
  nodup := h.rep.nodup
  safe := h.safe

theorem tableInv_newClient {s : Server} (h : TableInv s) (conn : Nat) :
    TableInv (serve s (.newClient conn)) := by
  simp only [serve]
  by_cases hfresh : s.table.mem.heap conn = none
  · rw [if_pos hfresh]
    unfold tcpNewConnection
    by_cases hfull : s.table.numConnected ≥ maxNumClients
    · rw [if_pos hfull, if_pos hfull]
      exact h
    · rw [if_neg hfull, if_neg hfull]
      obtain ⟨mem, hpush, hrep⟩ := h.rep.pushFront hfresh Conn.zero
      have hlength := h.length
      simp only [connAdd, hpush]
      refine ⟨hrep, h.safe, ?_, ?_⟩
      · show s.expected.length + 1 ≤ s.table.numConnected + 1
        omega
      · show s.table.numConnected + 1 ≤ maxNumClients
        omega
  · rw [if_neg hfresh]
    exact h

theorem map_mark_of_not_mem {conn : Nat} {l : List (Nat × Conn)} (h : conn ∉ addrs l) :
    l.map (mark conn) = l := by
  have hsame : ∀ x ∈ l, mark conn x = id x := by
    intro x hx
    refine if_neg ?_
    rintro rfl
    exact h (List.mem_map_of_mem hx)
  exact (List.map_congr_left hsame).trans (List.map_id l)

/-- A connection is marked, wherever it stands. -/
theorem connRemove_rep {table : ConnTable} {l₁ l₂ : List (Nat × Conn)} {conn : Nat} {v : Conn}
    (h : Rep table.mem (l₁ ++ (conn, v) :: l₂)) :
    ∃ mem, connRemove table conn = { table with mem := mem } ∧
      Rep mem (l₁ ++ (conn, { v with deleteMe := true }) :: l₂) := by
  have hnode := h.node
  obtain ⟨mem, hset, hrep⟩ := h.setVal { v with deleteMe := true }
  have hmem : table.mem.write conn
      ⟨first l₂ none, lastLink .head l₁, { v with deleteMe := true }⟩ = mem := by
    simpa [Mem.setVal, hnode] using hset
  refine ⟨mem, ?_, hrep⟩
  simp only [connRemove, hnode, hmem]

theorem map_mark_middle {l₁ l₂ : List (Nat × Conn)} {conn : Nat} {v : Conn}
    (hnd : (addrs (l₁ ++ (conn, v) :: l₂)).Nodup) :
    (l₁ ++ (conn, v) :: l₂).map (mark conn) = l₁ ++ (conn, { v with deleteMe := true }) :: l₂ := by
  obtain ⟨-, -, hne₁, hne₂, -, -⟩ := nodup_middle hnd
  have hmark : mark conn (conn, v) = (conn, { v with deleteMe := true }) := if_pos rfl
  rw [List.map_append, List.map_cons, map_mark_of_not_mem hne₁, map_mark_of_not_mem hne₂, hmark]

theorem tableInv_remove {s : Server} (h : TableInv s) (conn : Nat) :
    TableInv (serve s (.remove conn)) := by
  have hlength : (s.expected.map (mark conn)).length ≤ s.table.numConnected := by
    rw [List.length_map]
    exact h.length
  have hrep := h.rep
  by_cases hin : conn ∈ addrs s.expected
  · obtain ⟨⟨a, v⟩, hx, rfl⟩ := List.mem_map.mp hin
    obtain ⟨l₁, l₂, hsplit⟩ := List.append_of_mem hx
    rw [hsplit] at hrep
    obtain ⟨mem, hremove, hrep'⟩ := connRemove_rep hrep
    have hmap := map_mark_middle hrep.nodup
    simp only [serve, hsplit] at hlength ⊢
    rw [hmap] at hlength ⊢
    rw [hremove]
    exact ⟨hrep', h.safe, hlength, h.bound⟩
  · -- not a connection of this server
    have hfree : s.table.mem.heap conn = none := by
      cases hnode : s.table.mem.heap conn with
      | none => rfl
      | some node => exact absurd (hrep.only conn (by simp [hnode])) hin
    have hsame : connRemove s.table conn = s.table := by simp only [connRemove, hfree]
    simp only [serve, hsame, map_mark_of_not_mem hin]
    exact h

/-! ## A pass -/

theorem lastLink_of_ne_nil {l : List (Nat × Conn)} (link : Link Nat) (h : l ≠ []) :
    ∃ a, lastLink link l = .nextOf a := by
  induction l generalizing link with
  | nil => exact absurd rfl h
  | cons x rest ih =>
    cases rest with
    | nil => exact ⟨x.1, rfl⟩
    | cons y rest => exact ih (.nextOf x.1) (List.cons_ne_nil y rest)

theorem clearHead_wild (table : ConnTable) (conn : Nat) :
    (clearHead table conn).wild = table.wild := by
  unfold clearHead
  split <;> rfl

theorem clearHead_of_ne {table : ConnTable} {conn : Nat} (h : table.mem.head ≠ some conn) :
    clearHead table conn = table := if_neg h

/-- **A connection behind the head** is taken out as it should be. -/
theorem connFree_rep {table : ConnTable} {l₁ l₂ : List (Nat × Conn)} {conn : Nat} {v : Conn}
    (h : Rep table.mem (l₁ ++ (conn, v) :: l₂)) (hne : l₁ ≠ []) :
    ∃ mem, connFree table conn = { table with mem := mem } ∧ Rep mem (l₁ ++ l₂) := by
  obtain ⟨mem, hunlink, hrep⟩ := h.unlink
  obtain ⟨-, -, hne₁, -, -, -⟩ := nodup_middle h.nodup
  obtain ⟨a, hlink⟩ := lastLink_of_ne_nil .head hne
  have hnode := h.node
  rw [hlink] at hnode
  -- the steps of `unlink` are those of `conn_free` while `prev` is the `next` of a connection
  obtain ⟨mem₁, hset, mem₂, hstore, rfl⟩ : ∃ mem₁, table.mem.setPrev (first l₂ none) (.nextOf a)
      = some mem₁ ∧ ∃ mem₂, mem₁.store (.nextOf a) (first l₂ none) = some mem₂ ∧
        mem₂.free conn = mem := by
    simpa [Mem.unlink, hnode, Option.bind_eq_some_iff] using hunlink
  have hhead : mem₂.head ≠ some conn := by
    obtain ⟨⟨b, w⟩, rest, rfl⟩ := List.exists_cons_of_ne_nil hne
    have hfirst : mem₂.head = some b := hrep.head
    rw [hfirst]
    intro heq
    exact hne₁ (by simp [Option.some.inj heq])
  have hclear : clearHead { table with mem := mem₂ } conn = { table with mem := mem₂ } :=
    clearHead_of_ne hhead
  refine ⟨mem₂.free conn, ?_, hrep⟩
  simp only [connFree, hnode, hset, storePrev, hstore, hclear]

/-- **The head** is freed through a pointer to nothing. -/
theorem connFree_head {table : ConnTable} {l : List (Nat × Conn)} {conn : Nat} {v : Conn}
    (h : Rep table.mem ((conn, v) :: l)) : (connFree table conn).wild = true := by
  have hnode : table.mem.heap conn = some ⟨first l none, .head, v⟩ := h.seg.1
  simp only [connFree, hnode]
  cases hset : table.mem.setPrev (first l none) .head with
  | none => rfl
  | some mem => simp only [storePrev, clearHead_wild]

/-- What has gone astray is not undone. -/
theorem wild_connFree {table : ConnTable} (h : table.wild = true) (conn : Nat) :
    (connFree table conn).wild = true := by
  have hstore : ∀ table prev next, table.wild = true → (storePrev table prev next).wild = true := by
    intro table prev next hwild
    unfold storePrev
    split
    · rfl
    · split
      · exact hwild
      · rfl
  unfold connFree
  split
  · rfl
  · split
    · rfl
    · simp only [clearHead_wild]
      exact hstore _ _ _ h

theorem wild_deleteLoop {fuel : Nat} {table : ConnTable} {p : Option Nat}
    (h : table.wild = true) : (deleteLoop fuel table p).wild = true := by
  induction fuel generalizing table p with
  | zero => cases p <;> first | exact h | rfl
  | succ fuel ih =>
    cases p with
    | none => exact h
    | some conn =>
      simp only [deleteLoop]
      split
      · rfl
      · apply ih
        split
        · exact wild_connFree h conn
        · exact h

/-- The pass behind connections that stay: it frees those that are marked. -/
theorem deleteLoop_rep {fuel : Nat} {table : ConnTable} {l₁ l₂ : List (Nat × Conn)}
    (h : Rep table.mem (l₁ ++ l₂)) (hne : l₁ ≠ []) (hfuel : l₂.length ≤ fuel) :
    ∃ mem, deleteLoop fuel table (first l₂ none) = { table with mem := mem } ∧
      Rep mem (l₁ ++ l₂.filter fun x => !x.2.deleteMe) := by
  induction l₂ generalizing fuel table l₁ with
  | nil =>
    refine ⟨table.mem, ?_, h⟩
    cases fuel <;> rfl
  | cons x l₂ ih =>
    obtain ⟨conn, v⟩ := x
    obtain ⟨fuel, rfl⟩ : ∃ n, fuel = n + 1 := ⟨fuel - 1, by
      have hlen : ((conn, v) :: l₂).length = l₂.length + 1 := rfl
      omega⟩
    have hfuel' : l₂.length ≤ fuel := by simpa using hfuel
    have hnode := h.node
    cases hmarked : v.deleteMe with
    | true =>
      obtain ⟨mem, hfree, hrep⟩ := connFree_rep h hne
      have hrest : Rep ({ table with mem := mem } : ConnTable).mem (l₁ ++ l₂) := hrep
      obtain ⟨mem', hloop, hrep'⟩ := ih hrest hne hfuel'
      refine ⟨mem', ?_, ?_⟩
      · show deleteLoop (fuel + 1) table (some conn) = _
        simp only [deleteLoop, hnode, hmarked, hfree, if_true]
        exact hloop
      · simpa [hmarked] using hrep'
    | false =>
      have hstay : Rep table.mem ((l₁ ++ [(conn, v)]) ++ l₂) := by simpa using h
      obtain ⟨mem, hloop, hrep⟩ := ih hstay (by simp) hfuel'
      refine ⟨mem, ?_, ?_⟩
      · show deleteLoop (fuel + 1) table (some conn) = _
        simp only [deleteLoop, hnode, hmarked]
        exact hloop
      · simpa [hmarked] using hrep

/-- A pass over a head that stays. -/
theorem tableInv_deleteAll {s : Server} (h : TableInv s) (hstays : HeadStays s .deleteAll) :
    TableInv (serve s .deleteAll) := by
  obtain ⟨table, expected⟩ := s
  obtain ⟨hrep, hsafe, hlength, hbound⟩ := h
  cases expected with
  | nil =>
    have hhead : table.mem.head = none := hrep.head
    have hsame : deleteAllConnections table = table := by
      simp [deleteAllConnections, hhead, maxNumClients, deleteLoop]
    simp only [serve, hsame]
    exact ⟨hrep, hsafe, hlength, hbound⟩
  | cons x l =>
    obtain ⟨conn, v⟩ := x
    have hhead : table.mem.head = some conn := hrep.head
    have hnode : table.mem.heap conn = some ⟨first l none, .head, v⟩ := hrep.seg.1
    have hunmarked : v.deleteMe = false := hstays rfl conn _ hhead hnode
    have hrest : Rep table.mem ([(conn, v)] ++ l) := hrep
    have hfuel : l.length ≤ 9 := by
      have hmax : maxNumClients = 10 := rfl
      have hcons : ((conn, v) :: l).length = l.length + 1 := rfl
      have hlength' : ((conn, v) :: l).length ≤ table.numConnected := hlength
      have hbound' : table.numConnected ≤ maxNumClients := hbound
      omega
    obtain ⟨mem, hloop, hrep'⟩ := deleteLoop_rep hrest (by simp) hfuel
    have hpass : deleteAllConnections table = { table with mem := mem } := by
      rw [← hloop, deleteAllConnections, hhead]
      show deleteLoop (9 + 1) table (some conn) = _
      simp only [deleteLoop, hnode, hunmarked]
      rfl
    have hkept : ((conn, v) :: l).filter (fun x => !x.2.deleteMe)
        = [(conn, v)] ++ l.filter (fun x => !x.2.deleteMe) := by
      simp [hunmarked]
    simp only [serve, hpass, hkept]
    refine ⟨hrep', hsafe, ?_, hbound⟩
    have hle := List.length_filter_le (fun x : Nat × Conn => !x.2.deleteMe) l
    have hlength' : l.length + 1 ≤ table.numConnected := hlength
    show (l.filter (fun x => !x.2.deleteMe)).length + 1 ≤ table.numConnected
    omega

theorem marked_of_not_headStays {s : Server} {conn : Nat} {node : Node Nat Conn}
    (hfirst : s.table.mem.head = some conn) (hnode : s.table.mem.heap conn = some node)
    (hhead : ¬ HeadStays s .deleteAll) : node.val.deleteMe = true := by
  cases hmarked : node.val.deleteMe with
  | true => rfl
  | false =>
    refine absurd ?_ hhead
    intro _ conn' node' hconn' hnode'
    obtain rfl := Option.some.inj (hfirst.symm.trans hconn')
    obtain rfl := Option.some.inj (hnode.symm.trans hnode')
    exact hmarked

/-- A pass that frees the head goes astray. -/
theorem wild_deleteAll {s : Server} (h : TableInv s) (hhead : ¬ HeadStays s .deleteAll) :
    (serve s .deleteAll).table.wild = true := by
  obtain ⟨table, expected⟩ := s
  have hrep := h.rep
  cases expected with
  | nil =>
    refine absurd ?_ hhead
    intro _ conn node hconn
    rw [show table.mem.head = none from hrep.head] at hconn
    cases hconn
  | cons x l =>
    obtain ⟨conn, v⟩ := x
    have hfirst : table.mem.head = some conn := hrep.head
    have hnode : table.mem.heap conn = some ⟨first l none, .head, v⟩ := hrep.seg.1
    have hmarked : v.deleteMe = true := marked_of_not_headStays hfirst hnode hhead
    show (deleteLoop (9 + 1) table table.mem.head).wild = true
    rw [hfirst]
    simp only [deleteLoop, hnode, hmarked, if_true]
    exact wild_deleteLoop (connFree_head hrep)

/-- An empty list stays empty. -/
theorem head_connFree {table : ConnTable} (h : table.mem.head = none) (conn : Nat) :
    (connFree table conn).mem.head = none := by
  have hstore : ∀ table prev next, table.mem.head = none →
      (storePrev table prev next).mem.head = none := by
    intro table prev next hnone
    cases prev with
    | head => exact hnone
    | nextOf a =>
      simp only [storePrev, Mem.store]
      cases table.mem.heap a <;> exact hnone
  unfold connFree
  split
  · exact h
  · rename_i node hnode
    cases hset : table.mem.setPrev node.next node.prev with
    | none => exact h
    | some mem =>
      have hmem : mem.head = none := by
        rw [Mem.setPrev_head hset]
        exact h
      show (clearHead _ conn).mem.head = none
      have hkept := hstore { table with mem := mem } node.prev node.next hmem
      rw [clearHead_of_ne]
      · exact hkept
      · rw [hkept]
        exact (Option.some_ne_none conn).symm

theorem head_deleteLoop {fuel : Nat} {table : ConnTable} {p : Option Nat}
    (h : table.mem.head = none) : (deleteLoop fuel table p).mem.head = none := by
  induction fuel generalizing table p with
  | zero => cases p <;> exact h
  | succ fuel ih =>
    cases p with
    | none => exact h
    | some conn =>
      simp only [deleteLoop]
      split
      · exact h
      · apply ih
        split
        · exact head_connFree h conn
        · exact h

/-- **A pass that frees the head empties the list**, whoever follows. -/
theorem head_deleteAll {s : Server} (h : TableInv s) (hhead : ¬ HeadStays s .deleteAll) :
    (serve s .deleteAll).table.mem.head = none := by
  obtain ⟨table, expected⟩ := s
  have hrep := h.rep
  cases expected with
  | nil => exact head_deleteLoop hrep.head
  | cons x l =>
    obtain ⟨conn, v⟩ := x
    have hfirst : table.mem.head = some conn := hrep.head
    have hnode : table.mem.heap conn = some ⟨first l none, .head, v⟩ := hrep.seg.1
    have hmarked : v.deleteMe = true := marked_of_not_headStays hfirst hnode hhead
    have hsplit : Rep table.mem ([] ++ (conn, v) :: l) := hrep
    obtain ⟨mem', hunlink, -⟩ := hsplit.unlink
    rw [Mem.unlink, hnode, Option.bind_some] at hunlink
    obtain ⟨mem, hset, -⟩ := Option.bind_eq_some_iff.mp hunlink
    show (deleteLoop (9 + 1) table table.mem.head).mem.head = none
    rw [hfirst]
    simp only [deleteLoop, hnode, hmarked, if_true]
    apply head_deleteLoop
    have hcleared : (connFree table conn).mem.head
        = (clearHead { table with mem := mem, wild := true } conn).mem.head := by
      simp only [connFree, hnode, hset, storePrev]
      rfl
    rw [hcleared, clearHead, if_pos]
    rw [Mem.setPrev_head hset]
    exact hfirst

/-! ## Runs -/

theorem tableSound_iff_headStays {s : Server} {op : TableOp} (h : TableInv s) :
    TableSound (serve s op) ↔ HeadStays s op := by
  cases op with
  | newClient conn => exact iff_of_true (tableInv_newClient h conn).sound nofun
  | remove conn => exact iff_of_true (tableInv_remove h conn).sound nofun
  | deleteAll =>
    by_cases hstays : HeadStays s .deleteAll
    · exact iff_of_true (tableInv_deleteAll h hstays).sound hstays
    · refine iff_of_false ?_ hstays
      intro hsound
      have hsafe := hsound.safe
      rw [wild_deleteAll h hstays] at hsafe
      cases hsafe

theorem tableInv_serve {s : Server} {op : TableOp} (h : TableInv s) (hstays : HeadStays s op) :
    TableInv (serve s op) := by
  cases op with
  | newClient conn => exact tableInv_newClient h conn
  | remove conn => exact tableInv_remove h conn
  | deleteAll => exact tableInv_deleteAll h hstays

/-- **The table loses nobody, in exactly the runs in which no pass frees the head of the list.** -/
theorem tableSound_iff (ops : List TableOp) :
    Along serve (fun s op => TableSound (serve s op)) Server.init ops ↔
      Along serve HeadStays Server.init ops := by
  refine along_iff_of_invariant ?_ ?_ tableInv_init
  · intro s op h hsound
    exact tableInv_serve h ((tableSound_iff_headStays h).mp hsound)
  · intro s op h
    exact tableSound_iff_headStays h

/-- Of two clients the one that came last is removed: the table is empty, and a pointer to the
    stack of `conn_add` has been written through. -/
theorem other_client_lost :
    let ops : List TableOp := [.newClient 1, .newClient 2, .remove 2, .deleteAll]
    (run serve Server.init ops).expected = [(1, Conn.zero)] ∧
      (run serve Server.init ops).table.mem.head = none ∧
      (run serve Server.init ops).table.wild = true ∧
      ¬ Along serve (fun s op => TableSound (serve s op)) Server.init ops := by
  refine ⟨by decide, by decide, by decide, ?_⟩
  rintro ⟨-, -, -, hsound, -⟩
  exact absurd hsound.safe (by decide)

end Ctcp

import DronesmithEngine.GoRuntime
import DronesmithEngine.LabelledRuns
import DronesmithEngine.Pem
import Mathlib.Tactic

/-!
# The links of the output manager

`fmulink/output.go`: every `Add` dials an address, stores a link for it and
starts a goroutine that reads from the connection.  Before each read that
goroutine looks the link of its address up again, to wait for its `Quit`.
-/

namespace DronesmithEngine.Fmulink

open Go LabelledRuns

/-- Connections and channels are known by the number of the `Add` that made
them. -/
structure outputLink where
  Conn : ℕ
  Quit : ℕ
  deriving DecidableEq

structure OutputManager where
  links : GoMap (List UInt8) outputLink
  made : ℕ

namespace OutputManager

/-- `dialErr` is what `net.Dial` answers. -/
def Add (addr : List UInt8) (dialErr : Option (List UInt8))
    (o : OutputManager) : Option (List UInt8) × OutputManager :=
  match dialErr with
  | some err => (some err, o)
  | none =>
      (none,
        { links := o.links.insert addr ⟨o.made, o.made⟩
          made := o.made + 1 })

def Remove (addr : List UInt8) (o : OutputManager) :
    Option (List UInt8) × OutputManager :=
  match o.links.lookup addr with
  | some _ => (none, { o with links := o.links.erase addr })
  | none => (some (Pem.ascii "No key " ++ addr ++ Pem.ascii " exists.\n"), o)

end OutputManager

/-- An input goroutine, with the channel that its `select` waits for.  There
is none before its first iteration. -/
structure InputGoroutine where
  addr : List UInt8
  waitsFor : Option ℕ
  deriving DecidableEq

/-- The manager with its goroutines and its open connections. -/
structure OutputRun where
  manager : OutputManager
  goroutines : List InputGoroutine
  opened : List (List UInt8 × ℕ)
  panicked : Bool

/-- `taker` is the goroutine that takes the `true` that `Remove` sends. -/
inductive OutputEvent
  | add (addr : List UInt8) (dialErr : Option (List UInt8))
  | remove (addr : List UInt8) (taker : ℕ)
  | iterate (i : ℕ)

namespace OutputRun

def initial : OutputRun where
  manager := ⟨∅, 0⟩
  goroutines := []
  opened := []
  panicked := false

def add (addr : List UInt8) (dialErr : Option (List UInt8))
    (s : OutputRun) : OutputRun :=
  match s.manager.Add addr dialErr with
  | (some _, o) => { s with manager := o }
  | (none, o) =>
      { s with
        manager := o
        goroutines := s.goroutines ++ [⟨addr, none⟩]
        opened := s.opened ++ [(addr, s.manager.made)] }

/-- Without a goroutine at the channel, the call blocks. -/
def remove (addr : List UInt8) (taker : ℕ) (s : OutputRun) :
    Option OutputRun :=
  match s.manager.links.lookup addr with
  | some item =>
      match s.goroutines[taker]? with
      | some g =>
          if g.waitsFor = some item.Quit then
            some
              { s with
                manager := (s.manager.Remove addr).2
                goroutines := s.goroutines.eraseIdx taker
                opened := s.opened.filter (·.2 ≠ item.Conn) }
          else none
      | none => none
  | none => some { s with manager := (s.manager.Remove addr).2 }

/-- The timer fires, if the goroutine has started, and the next `select`
looks the link up. -/
def iterate (i : ℕ) (s : OutputRun) : Option OutputRun :=
  match s.goroutines[i]? with
  | some g =>
      match s.manager.links.lookup g.addr with
      | some item =>
          some
            { s with
              goroutines :=
                s.goroutines.set i { g with waitsFor := some item.Quit } }
      | none => some { s with panicked := true }
  | none => none

def act (s : OutputRun) : OutputEvent → Option OutputRun
  | .add addr dialErr => some (s.add addr dialErr)
  | .remove addr taker => s.remove addr taker
  | .iterate i => s.iterate i

/-- A panic of a goroutine ends the process. -/
def step (s : OutputRun) (event : OutputEvent) : Option OutputRun :=
  if s.panicked then none else s.act event

/-! ## One listener for each link -/

def listeners (s : OutputRun) (addr : List UInt8) : ℕ :=
  (s.goroutines.map InputGoroutine.addr).count addr

def connections (s : OutputRun) (addr : List UInt8) : ℕ :=
  (s.opened.map Prod.fst).count addr

def links (s : OutputRun) (addr : List UInt8) : ℕ :=
  if addr ∈ s.manager.links then 1 else 0

structure OneListener (s : OutputRun) : Prop where
  listeners_eq : ∀ addr, s.listeners addr = s.links addr
  connections_eq : ∀ addr, s.connections addr = s.links addr
  not_panicked : s.panicked = false

/-- No address is dialled again while it has a link. -/
def AddsNew (s : OutputRun) : OutputEvent → Prop
  | .add addr none => addr ∉ s.manager.links
  | _ => True

variable {s next : OutputRun}

theorem add_dialled (addr : List UInt8) :
    s.add addr none =
      { s with
        manager :=
          { links := s.manager.links.insert addr
              ⟨s.manager.made, s.manager.made⟩
            made := s.manager.made + 1 }
        goroutines := s.goroutines ++ [⟨addr, none⟩]
        opened := s.opened ++ [(addr, s.manager.made)] } := rfl

theorem remove_cases {addr : List UInt8} {taker : ℕ}
    (hremove : s.remove addr taker = some next) :
    (s.manager.links.lookup addr = none ∧ next = s) ∨
      ∃ item g, s.manager.links.lookup addr = some item ∧
        s.goroutines[taker]? = some g ∧ g.waitsFor = some item.Quit ∧
        next =
          { s with
            manager :=
              { s.manager with links := s.manager.links.erase addr }
            goroutines := s.goroutines.eraseIdx taker
            opened := s.opened.filter (·.2 ≠ item.Conn) } := by
  unfold remove OutputManager.Remove at hremove
  cases hitem : s.manager.links.lookup addr with
  | none =>
      rw [hitem] at hremove
      exact Or.inl ⟨rfl, (Option.some.inj hremove).symm⟩
  | some item =>
      rw [hitem] at hremove
      cases hg : s.goroutines[taker]? with
      | none =>
          rw [hg] at hremove
          cases hremove
      | some g =>
          rw [hg] at hremove
          by_cases hwaits : g.waitsFor = some item.Quit
          · simp only [hwaits, if_true] at hremove
            exact Or.inr ⟨item, g, rfl, rfl, hwaits,
              (Option.some.inj hremove).symm⟩
          · simp only [if_neg hwaits] at hremove
            cases hremove

theorem iterate_cases {i : ℕ} (hiterate : s.iterate i = some next) :
    ∃ g, s.goroutines[i]? = some g ∧
      ((s.manager.links.lookup g.addr = none ∧
          next = { s with panicked := true }) ∨
        ∃ item, s.manager.links.lookup g.addr = some item ∧
          next =
            { s with
              goroutines :=
                s.goroutines.set i
                  { g with waitsFor := some item.Quit } }) := by
  unfold iterate at hiterate
  cases hg : s.goroutines[i]? with
  | none =>
      rw [hg] at hiterate
      cases hiterate
  | some g =>
      rw [hg] at hiterate
      refine ⟨g, rfl, ?_⟩
      cases hitem : s.manager.links.lookup g.addr with
      | none =>
          simp only [hitem] at hiterate
          exact Or.inl ⟨rfl, (Option.some.inj hiterate).symm⟩
      | some item =>
          simp only [hitem] at hiterate
          exact Or.inr ⟨item, rfl, (Option.some.inj hiterate).symm⟩

theorem act_of_step {event : OutputEvent}
    (hstep : s.step event = some next) : s.act event = some next := by
  unfold step at hstep
  by_cases hpanicked : s.panicked
  · rw [if_pos hpanicked] at hstep
    cases hstep
  · rwa [if_neg hpanicked] at hstep

/-! ## The invariant -/

/-- Every goroutine that has started waits for the channel of its own link,
and no two links share a channel. -/
structure Linked (s : OutputRun) : Prop extends OneListener s where
  waits_own : ∀ g ∈ s.goroutines, ∀ quit, g.waitsFor = some quit →
    ∃ item, s.manager.links.lookup g.addr = some item ∧ item.Quit = quit
  opened_own : ∀ addr conn, (addr, conn) ∈ s.opened →
    ∃ item, s.manager.links.lookup addr = some item ∧ item.Conn = conn
  numbered : ∀ addr item, s.manager.links.lookup addr = some item →
    item.Conn = item.Quit ∧ item.Quit < s.manager.made
  distinct : ∀ addr other item item',
    s.manager.links.lookup addr = some item →
      s.manager.links.lookup other = some item' →
        item.Quit = item'.Quit → addr = other

theorem initial_linked : initial.Linked where
  listeners_eq _ := rfl
  connections_eq _ := rfl
  not_panicked := rfl
  waits_own _ hg := absurd hg List.not_mem_nil
  opened_own _ _ hopened := absurd hopened List.not_mem_nil
  numbered _ _ hitem := by
    rw [initial, Finmap.lookup_empty] at hitem
    cases hitem
  distinct _ _ _ _ hitem := by
    rw [initial, Finmap.lookup_empty] at hitem
    cases hitem

theorem links_insert (addr other : List UInt8) (item : outputLink)
    (hnew : addr ∉ s.manager.links) :
    (if other ∈ s.manager.links.insert addr item then 1 else 0) =
      s.links other + (if addr = other then 1 else 0) := by
  unfold links
  by_cases hother : addr = other
  · subst hother
    simp [hnew]
  · simp [Finmap.mem_insert, hother, Ne.symm hother]

theorem Linked.add {addr : List UInt8} (hs : s.Linked)
    (hnew : addr ∉ s.manager.links) : (s.add addr none).Linked := by
  have hkept : ∀ other item, s.manager.links.lookup other = some item →
      (s.manager.links.insert addr
        ⟨s.manager.made, s.manager.made⟩).lookup other = some item := by
    intro other item hitem
    rw [Finmap.lookup_insert_of_ne, hitem]
    rintro rfl
    exact hnew (Finmap.mem_of_lookup_eq_some hitem)
  have hcases : ∀ other item, (s.manager.links.insert addr
      ⟨s.manager.made, s.manager.made⟩).lookup other = some item →
        (other = addr ∧ item = ⟨s.manager.made, s.manager.made⟩) ∨
          s.manager.links.lookup other = some item := by
    intro other item hitem
    by_cases hother : other = addr
    · subst hother
      rw [Finmap.lookup_insert] at hitem
      exact Or.inl ⟨rfl, (Option.some.inj hitem).symm⟩
    · rw [Finmap.lookup_insert_of_ne _ hother] at hitem
      exact Or.inr hitem
  rw [add_dialled]
  constructor
  · constructor
    · intro other
      rw [links, links_insert addr other _ hnew, ← hs.listeners_eq other]
      simp [listeners, List.count_singleton]
    · intro other
      rw [links, links_insert addr other _ hnew, ← hs.connections_eq other]
      simp [connections, List.count_singleton]
    · exact hs.not_panicked
  · intro g hg quit hquit
    rcases List.mem_append.mp hg with hold | hlast
    · obtain ⟨item, hitem, heq⟩ := hs.waits_own g hold quit hquit
      exact ⟨item, hkept _ _ hitem, heq⟩
    · rw [List.mem_singleton.mp hlast] at hquit
      cases hquit
  · intro other conn hopened
    rcases List.mem_append.mp hopened with hold | hlast
    · obtain ⟨item, hitem, heq⟩ := hs.opened_own other conn hold
      exact ⟨item, hkept _ _ hitem, heq⟩
    · cases List.mem_singleton.mp hlast
      exact ⟨_, Finmap.lookup_insert _, rfl⟩
  · intro other item hitem
    rcases hcases other item hitem with ⟨-, rfl⟩ | hold
    · exact ⟨rfl, Nat.lt_succ_self _⟩
    · obtain ⟨hconn, hless⟩ := hs.numbered other item hold
      exact ⟨hconn, Nat.lt_succ_of_lt hless⟩
  · intro a b item item' ha hb heq
    rcases hcases a item ha with ⟨rfl, rfl⟩ | hold
    · rcases hcases b item' hb with ⟨rfl, -⟩ | hold'
      · rfl
      · exact absurd heq.symm (hs.numbered b item' hold').2.ne
    · rcases hcases b item' hb with ⟨rfl, rfl⟩ | hold'
      · exact absurd heq (hs.numbered a item hold).2.ne
      · exact hs.distinct a b item item' hold hold' heq

section

variable {addr : List UInt8} {taker : ℕ} {item : outputLink}
  {g : InputGoroutine}

/-- The channel tells whose goroutine takes the signal. -/
theorem Linked.taker_addr (hs : s.Linked)
    (hitem : s.manager.links.lookup addr = some item)
    (hg : s.goroutines[taker]? = some g)
    (hwaits : g.waitsFor = some item.Quit) : g.addr = addr := by
  obtain ⟨own, hlookup, hquit⟩ :=
    hs.waits_own g (List.mem_of_getElem? hg) item.Quit hwaits
  exact hs.distinct g.addr addr own item hlookup hitem hquit

theorem Linked.filter_opened (hs : s.Linked)
    (hitem : s.manager.links.lookup addr = some item) :
    s.opened.filter (·.2 ≠ item.Conn) = s.opened.filter (·.1 ≠ addr) := by
  apply List.filter_congr
  rintro ⟨other, conn⟩ hopened
  obtain ⟨own, hlookup, rfl⟩ := hs.opened_own other conn hopened
  have hconn := (hs.numbered other own hlookup).1
  have hconn' := (hs.numbered addr item hitem).1
  have hiff : own.Conn = item.Conn ↔ other = addr := by
    rw [hconn, hconn']
    refine ⟨hs.distinct other addr own item hlookup hitem, ?_⟩
    rintro rfl
    rw [hlookup] at hitem
    rw [Option.some.inj hitem]
  simp only [ne_eq, hiff]

theorem count_eraseIdx_addr (hg : s.goroutines[taker]? = some g)
    (other : List UInt8) :
    ((s.goroutines.eraseIdx taker).map InputGoroutine.addr).count other +
      (if g.addr = other then 1 else 0) = s.listeners other := by
  obtain ⟨hbound, hget⟩ := List.getElem?_eq_some_iff.mp hg
  have hperm := (List.getElem_cons_eraseIdx_perm hbound).map
    InputGoroutine.addr
  rw [hget, List.map_cons] at hperm
  rw [listeners, ← hperm.count_eq other, List.count_cons]
  simp

theorem count_filter_opened {other : List UInt8} (hother : other ≠ addr) :
    ((s.opened.filter (·.1 ≠ addr)).map Prod.fst).count other =
      s.connections other := by
  have hmap : (s.opened.filter (·.1 ≠ addr)).map Prod.fst =
      (s.opened.map Prod.fst).filter (· ≠ addr) := by
    rw [List.filter_map]
    rfl
  rw [hmap, List.count_filter (by simpa using hother), connections]

theorem links_erase (other : List UInt8) :
    (if other ∈ s.manager.links.erase addr then 1 else 0) =
      if other = addr then 0 else s.links other := by
  by_cases hother : other = addr
  · simp [hother]
  · simp [links, Finmap.mem_erase, hother]

theorem lookup_erase_iff {other : List UInt8} {own : outputLink} :
    (s.manager.links.erase addr).lookup other = some own ↔
      other ≠ addr ∧ s.manager.links.lookup other = some own := by
  by_cases hother : other = addr
  · subst hother
    simp [Finmap.lookup_erase]
  · simp [hother, Finmap.lookup_erase_ne hother]

theorem Linked.remove (hs : s.Linked)
    (hitem : s.manager.links.lookup addr = some item)
    (hg : s.goroutines[taker]? = some g)
    (hwaits : g.waitsFor = some item.Quit) :
    Linked
      { s with
        manager := { s.manager with links := s.manager.links.erase addr }
        goroutines := s.goroutines.eraseIdx taker
        opened := s.opened.filter (·.2 ≠ item.Conn) } := by
  have hown : g.addr = addr := hs.taker_addr hitem hg hwaits
  have hone : s.links addr = 1 :=
    if_pos (Finmap.mem_of_lookup_eq_some hitem)
  have hnone : ((s.goroutines.eraseIdx taker).map
      InputGoroutine.addr).count addr = 0 := by
    have hcount := count_eraseIdx_addr hg addr
    rw [hs.listeners_eq addr, hone, if_pos hown] at hcount
    omega
  rw [hs.filter_opened hitem]
  constructor
  · constructor
    · intro other
      rw [links, links_erase, listeners]
      by_cases hother : other = addr
      · rw [if_pos hother, hother]
        exact hnone
      · have hcount := count_eraseIdx_addr hg other
        rw [hown, if_neg (Ne.symm hother)] at hcount
        rw [if_neg hother, ← hs.listeners_eq other]
        exact hcount
    · intro other
      rw [links, links_erase, connections]
      by_cases hother : other = addr
      · rw [if_pos hother, hother, List.count_eq_zero]
        simp
      · rw [if_neg hother, ← hs.connections_eq other]
        exact count_filter_opened hother
    · exact hs.not_panicked
  · intro g' hg' quit hquit
    obtain ⟨own, hfound, heq⟩ :=
      hs.waits_own g' (List.mem_of_mem_eraseIdx hg') quit hquit
    refine ⟨own, lookup_erase_iff.mpr ⟨?_, hfound⟩, heq⟩
    intro hsame
    exact List.count_eq_zero.mp hnone (List.mem_map.mpr ⟨g', hg', hsame⟩)
  · intro other conn hopened
    obtain ⟨hin, hother⟩ := List.mem_filter.mp hopened
    obtain ⟨own, hfound, heq⟩ := hs.opened_own other conn hin
    exact ⟨own, lookup_erase_iff.mpr ⟨by simpa using hother, hfound⟩, heq⟩
  · intro other own hfound
    exact hs.numbered other own (lookup_erase_iff.mp hfound).2
  · intro a b own own' ha hb heq
    exact hs.distinct a b own own' (lookup_erase_iff.mp ha).2
      (lookup_erase_iff.mp hb).2 heq

theorem Linked.iterate {i : ℕ} (hs : s.Linked)
    (hg : s.goroutines[i]? = some g)
    (hitem : s.manager.links.lookup g.addr = some item) :
    Linked
      { s with
        goroutines :=
          s.goroutines.set i { g with waitsFor := some item.Quit } } := by
  obtain ⟨hbound, hget⟩ := List.getElem?_eq_some_iff.mp hg
  have hsame : (s.goroutines.set i { g with waitsFor := some item.Quit }).map
      InputGoroutine.addr = s.goroutines.map InputGoroutine.addr := by
    have hself : s.goroutines.set i g = s.goroutines := by
      rw [← hget, List.set_getElem_self]
    rw [List.map_set]
    nth_rewrite 2 [← hself]
    rw [List.map_set]
  refine { hs with listeners_eq := ?_, waits_own := ?_ }
  · intro addr
    rw [listeners, hsame]
    exact hs.listeners_eq addr
  · intro g' hg' quit hquit
    rcases List.mem_or_eq_of_mem_set hg' with hold | rfl
    · exact hs.waits_own g' hold quit hquit
    · exact ⟨item, hitem, Option.some.inj hquit⟩

end

/-- A goroutine is there only while its address has a link. -/
theorem OneListener.lookup_addr {g : InputGoroutine} (hs : s.OneListener)
    (hg : g ∈ s.goroutines) :
    ∃ item, s.manager.links.lookup g.addr = some item := by
  have hpos : 0 < s.listeners g.addr :=
    List.count_pos_iff.mpr (List.mem_map_of_mem hg)
  rw [hs.listeners_eq, links] at hpos
  split at hpos
  next hmem => exact Finmap.mem_iff.mp hmem
  next => omega

theorem Linked.step {event : OutputEvent} (hs : s.Linked)
    (hnew : s.AddsNew event) (hstep : s.step event = some next) :
    next.Linked := by
  replace hstep := act_of_step hstep
  cases event with
  | add addr dialErr =>
      cases Option.some.inj hstep
      cases dialErr with
      | none => exact hs.add hnew
      | some err => exact hs
  | remove addr taker =>
      rcases remove_cases hstep with ⟨-, rfl⟩ |
        ⟨item, g, hitem, hg, hwaits, rfl⟩
      · exact hs
      · exact hs.remove hitem hg hwaits
  | iterate i =>
      obtain ⟨g, hg, ⟨hnone, -⟩ | ⟨item, hitem, rfl⟩⟩ := iterate_cases hstep
      · obtain ⟨item, hitem⟩ :=
          hs.toOneListener.lookup_addr (List.mem_of_getElem? hg)
        rw [hnone] at hitem
        cases hitem
      · exact hs.iterate hg hitem

/-- The second goroutine for an address is there at once. -/
theorem OneListener.addsNew {event : OutputEvent} (hs : s.OneListener)
    (hnext : next.OneListener) (hstep : s.step event = some next) :
    s.AddsNew event := by
  cases event with
  | add addr dialErr =>
      cases dialErr with
      | some err => trivial
      | none =>
          rintro hmem
          cases Option.some.inj (act_of_step hstep)
          have hone := hs.listeners_eq addr
          have htwo := hnext.listeners_eq addr
          rw [add_dialled] at htwo
          simp only [listeners, links, hmem, if_true, Finmap.mem_insert,
            List.map_append, List.count_append, true_or] at hone htwo
          rw [hone] at htwo
          simp at htwo
  | remove addr taker => trivial
  | iterate i => trivial

/-- Every run in which no linked address is dialled again has one goroutine
and one connection for each link in all its states, and only such a run. -/
theorem add_new_iff_oneListener {events : List OutputEvent}
    (hrun : Run step initial events s) :
    GuardedRun step AddsNew initial events s ↔
      EveryStep step (fun _ _ next => next.OneListener) initial events := by
  apply GuardedRun.iff_everyStep _ _ initial_linked hrun
  · intro state event next hs hnew hstep
    exact hs.step hnew hstep
  · intro state event next hs hstep
    constructor
    · intro hnext
      exact hs.toOneListener.addsNew hnext hstep
    · intro hnew
      exact (hs.step hnew hstep).toOneListener

/-- A link is added, used and removed, and then added again. -/
theorem add_new_iff_oneListener_removed :
    ∃ events s, Run step initial events s ∧
      (GuardedRun step AddsNew initial events s ↔
        EveryStep step (fun _ _ next => next.OneListener) initial events) := by
  let addr := Pem.ascii "127.0.0.1:14550"
  let events : List OutputEvent :=
    [.add addr none, .iterate 0, .remove addr 0, .add addr none]
  have hexec : (exec step (fun _ _ => True) initial events).isSome := by
    decide
  obtain ⟨s, hrun⟩ := GuardedRun.of_exec_isSome hexec
  exact ⟨events, s, hrun, add_new_iff_oneListener hrun⟩

/-- The link is stored a second time.  `Remove` ends one of the two
goroutines, and the other one finds no link. -/
theorem added_twice_panics :
    ¬ ∀ events s, Run step initial events s → s.OneListener := by
  intro hall
  let addr := Pem.ascii "127.0.0.1:14550"
  let events : List OutputEvent :=
    [.add addr none, .add addr none, .iterate 0, .iterate 1,
      .remove addr 0, .iterate 0]
  have hexec : (exec step (fun _ _ => True) initial events).map panicked =
      some true := by
    decide
  obtain ⟨s, hrun, hpanicked⟩ := GuardedRun.of_exec_map hexec
  have hrunning := (hall events s hrun).not_panicked
  rw [hpanicked] at hrunning
  cases hrunning

end OutputRun

end DronesmithEngine.Fmulink

import Mathlib.Data.List.Infix
import Mathlib.Data.List.Nodup
import Mathlib.Logic.Function.Basic
import MiscProjects.Library.Runs

/-!
# The echo server on event ports

The threads of the server wait in `port_get`.  An event removes the association of its
descriptor and hands the connection to the thread that gets it; the callback associates
the descriptor again, for reading if all that was read has been echoed and for writing if
some of it is left.  The callback of the listening socket makes new connections.

The steps of a thread are its system calls, each with what the thread then does in memory.
Connections are named by their addresses.  `read` and `sent` record the bytes that have
been read from and written to a connection.  A step that dereferences a freed connection
is `none`.
-/

namespace MiscProjects.EventPorts

open MiscProjects.Runs
open Function (update update_self update_of_ne)

def blen : ℕ := 1024

inductive Poll
  | pollin
  | pollout
deriving DecidableEq

inductive Callback
  | echoFunc
  | listenFunc
deriving DecidableEq

structure Conn where
  cnCallback : Callback
  cnFd : ℕ
  cnBcnt : ℕ
  cnBuffer : List UInt8
  read : List UInt8
  sent : List UInt8

/-- `get_conn`, with the callback and the descriptor that are then filled in. -/
def Conn.create (cnCallback : Callback) (cnFd : ℕ) : Conn where
  cnCallback := cnCallback
  cnFd := cnFd
  cnBcnt := 0
  cnBuffer := List.replicate blen 0
  read := []
  sent := []

/-- The event that the association of a connection waits for. -/
def Conn.awaited (c : Conn) : Poll := if 0 < c.cnBcnt then .pollout else .pollin

structure Association where
  fd : ℕ
  events : Poll
  user : ℕ
deriving DecidableEq

/-- Where a thread stands: before the given system call. -/
inductive Pc
  | portGet
  | exited
  | echoRead (ptr : ℕ)
  | echoWrite (ptr : ℕ)
  | echoAssociate (ptr : ℕ) (events : Poll)
  | listenAccept (ptr : ℕ)
  | listenAssociateNew (ptr new : ℕ)
  | listenAssociate (ptr : ℕ)
deriving DecidableEq

/-- The connections that a thread works on. -/
def Pc.held : Pc → List ℕ
  | .portGet => []
  | .exited => []
  | .echoRead ptr => [ptr]
  | .echoWrite ptr => [ptr]
  | .echoAssociate ptr _ => [ptr]
  | .listenAccept ptr => [ptr]
  | .listenAssociateNew ptr new => [ptr, new]
  | .listenAssociate ptr => [ptr]

structure Finished where
  read : List UInt8
  sent : List UInt8

/-- `openFds` are the descriptors the kernel has given out; `finished` tells what was read
from and sent to the connections that have been closed. -/
structure Server where
  conns : ℕ → Option Conn
  port : List Association
  threads : ℕ → Pc
  openFds : List ℕ
  finished : List Finished

/-- The server when `main` has made its threads: the listening socket is associated. -/
def Server.create (lsock : ℕ) : Server where
  conns := update (fun _ => none) 0 (some (.create .listenFunc lsock))
  port := [⟨lsock, .pollin, 0⟩]
  threads _ := .portGet
  openFds := [lsock]
  finished := []

inductive ReadResult
  | data (bytes : List UInt8)
  /-- Zero or an error, `EAGAIN` included. -/
  | failed
deriving DecidableEq

inductive WriteResult
  | wrote (n : ℕ)
  | eagain
  | error
deriving DecidableEq

inductive Action
  | event (t fd : ℕ)
  | alert (t : ℕ)
  | read (t : ℕ) (red : ReadResult)
  | write (t : ℕ) (wrote : WriteResult)
  | associate (t : ℕ)
  | accept (t new fd : ℕ)
deriving DecidableEq

namespace Server

def goto (t : ℕ) (pc : Pc) (s : Server) : Server :=
  { s with threads := update s.threads t pc }

def setConn (ptr : ℕ) (c : Conn) (s : Server) : Server :=
  { s with conns := update s.conns ptr (some c) }

/-- `port_associate`; a descriptor has one association at most. -/
def portAssociate (fd : ℕ) (events : Poll) (user : ℕ) (s : Server) : Server :=
  { s with port := ⟨fd, events, user⟩ :: s.port.filter fun a => a.fd ≠ fd }

/-- `close` and `free`. -/
def closeConn (ptr : ℕ) (c : Conn) (s : Server) : Server :=
  { s with
    conns := update s.conns ptr none
    port := s.port.filter fun a => a.fd ≠ c.cnFd
    openFds := s.openFds.erase c.cnFd
    finished := ⟨c.read, c.sent⟩ :: s.finished }

end Server

/-- `read` fills the beginning of the buffer. -/
def Conn.fill (c : Conn) (bytes : List UInt8) : Conn :=
  { c with
    cnBcnt := bytes.length
    cnBuffer := bytes ++ c.cnBuffer.drop bytes.length
    read := c.read ++ bytes }

/-- What `echo_func` does with the result of `write`: what has not been written is moved to
the front. -/
def Conn.drain (c : Conn) (wrote : ℕ) : Conn :=
  let c' := { c with sent := c.sent ++ c.cnBuffer.take wrote }
  if wrote < c.cnBcnt then
    if wrote ≠ 0 then
      { c' with
        cnBuffer := (c.cnBuffer.drop wrote).take (c.cnBcnt - wrote) ++
          c.cnBuffer.drop (c.cnBcnt - wrote)
        cnBcnt := c.cnBcnt - wrote }
    else c'
  else { c' with cnBcnt := 0 }

/-- The call of the callback and its first test. -/
def entry (ptr : ℕ) (c : Conn) : Pc :=
  match c.cnCallback with
  | .listenFunc => .listenAccept ptr
  | .echoFunc => if c.cnBcnt = 0 then .echoRead ptr else .echoWrite ptr

open Server

/-- The kernel reads at most `BLEN` bytes, writes at most what it is given, and returns
descriptors that are not in use. -/
def step (s : Server) : Action → Option Server
  | .event t fd =>
      if s.threads t = .portGet then do
        let a ← s.port.find? fun a => a.fd = fd
        let c ← s.conns a.user
        some ({ s with port := s.port.filter fun a => a.fd ≠ fd }.goto t (entry a.user c))
      else none
  | .alert t => if s.threads t = .portGet then some (s.goto t .exited) else none
  | .read t red =>
      match s.threads t with
      | .echoRead ptr => do
          let c ← s.conns ptr
          match red with
          | .data bytes =>
              if 0 < bytes.length ∧ bytes.length ≤ blen then
                some ((s.setConn ptr (c.fill bytes)).goto t (.echoWrite ptr))
              else none
          | .failed => some ((s.closeConn ptr c).goto t .portGet)
      | _ => none
  | .write t wrote =>
      match s.threads t with
      | .echoWrite ptr => do
          let c ← s.conns ptr
          match wrote with
          | .wrote n =>
              if n ≤ c.cnBcnt then
                some ((s.setConn ptr (c.drain n)).goto t
                  (.echoAssociate ptr (if n < c.cnBcnt then .pollout else .pollin)))
              else none
          | .eagain =>
              some ((s.setConn ptr (c.drain 0)).goto t
                (.echoAssociate ptr (if 0 < c.cnBcnt then .pollout else .pollin)))
          | .error => some ((s.closeConn ptr c).goto t .portGet)
      | _ => none
  | .associate t =>
      match s.threads t with
      | .echoAssociate ptr events => do
          let c ← s.conns ptr
          some ((s.portAssociate c.cnFd events ptr).goto t .portGet)
      | .listenAssociateNew ptr new => do
          let c ← s.conns new
          some ((s.portAssociate c.cnFd .pollin new).goto t (.listenAssociate ptr))
      | .listenAssociate ptr => do
          let c ← s.conns ptr
          some ((s.portAssociate c.cnFd .pollin ptr).goto t .portGet)
      | _ => none
  | .accept t new fd =>
      match s.threads t with
      | .listenAccept ptr =>
          if s.conns new = none ∧ fd ∉ s.openFds then
            some ({ s.setConn new (.create .echoFunc fd) with openFds := fd :: s.openFds }.goto t
              (.listenAssociateNew ptr new))
          else none
      | _ => none

/-! ## Who has a connection -/

/-- Every connection is associated once or held by one thread, never both. -/
structure Owned (s : Server) : Prop where
  live : ∀ a ∈ s.port, ∃ c, s.conns a.user = some c ∧ c.cnFd = a.fd
  users : (s.port.map Association.user).Nodup
  held : ∀ t, ∀ ptr ∈ (s.threads t).held, s.conns ptr ≠ none
  once : ∀ t, (s.threads t).held.Nodup
  alone : ∀ t t' ptr, ptr ∈ (s.threads t).held → ptr ∈ (s.threads t').held → t = t'
  apart : ∀ t, ∀ ptr ∈ (s.threads t).held, ∀ a ∈ s.port, a.user ≠ ptr
  placed : ∀ ptr c, s.conns ptr = some c →
    (∃ t, ptr ∈ (s.threads t).held) ∨ ∃ a ∈ s.port, a.user = ptr
  fds : ∀ p p' c c', s.conns p = some c → s.conns p' = some c' → c.cnFd = c'.cnFd → p = p'
  opened : ∀ ptr c, s.conns ptr = some c → c.cnFd ∈ s.openFds

variable {s s' : Server} {t ptr fd new lsock : ℕ} {c c' : Conn} {pc : Pc} {events : Poll}

theorem goto_self (s : Server) (t : ℕ) (pc : Pc) : (s.goto t pc).threads t = pc := update_self ..

variable {p t' : ℕ} {conns : ℕ → Option Conn}

theorem goto_of_ne (s : Server) (pc : Pc) {t : ℕ} (h : t' ≠ t) :
    (s.goto t pc).threads t' = s.threads t' :=
  update_of_ne h ..

theorem setConn_self (s : Server) (ptr : ℕ) (c : Conn) : (s.setConn ptr c).conns ptr = some c :=
  update_self ..

theorem setConn_of_ne (s : Server) (c : Conn) {ptr : ℕ} (h : p ≠ ptr) :
    (s.setConn ptr c).conns p = s.conns p :=
  update_of_ne h ..

theorem conns_create {lsock : ℕ} {c : Conn} (hc : (Server.create lsock).conns p = some c) :
    p = 0 ∧ c = .create .listenFunc lsock := by
  by_cases hp : p = 0
  · subst hp
    exact ⟨rfl, (Option.some.inj hc).symm⟩
  · change update (fun _ => none) 0 (some (Conn.create .listenFunc lsock)) p = some c at hc
    rw [update_of_ne hp] at hc
    cases hc

theorem owned_create (lsock : ℕ) : Owned (Server.create lsock) := by
  constructor
  · intro a ha
    rw [List.mem_singleton.mp ha]
    exact ⟨_, rfl, rfl⟩
  · exact List.nodup_singleton 0
  · intro t ptr hptr
    cases hptr
  · exact fun _ => List.nodup_nil
  · intro t t' ptr hptr
    cases hptr
  · intro t ptr hptr
    cases hptr
  · intro ptr c hc
    obtain ⟨rfl, rfl⟩ := conns_create hc
    exact .inr ⟨_, List.mem_singleton.mpr rfl, rfl⟩
  · intro p p' c c' hc hc' _
    rw [(conns_create hc).1, (conns_create hc').1]
  · intro ptr c hc
    rw [(conns_create hc).2]
    exact List.mem_singleton.mpr rfl

theorem mem_held_goto (h : ptr ∈ ((s.goto t pc).threads t').held) :
    (t' = t ∧ ptr ∈ pc.held) ∨ (t' ≠ t ∧ ptr ∈ (s.threads t').held) := by
  by_cases ht : t' = t
  · subst ht
    rw [goto_self] at h
    exact .inl ⟨rfl, h⟩
  · rw [goto_of_ne s pc ht] at h
    exact .inr ⟨ht, h⟩

theorem held_goto_self (h : ptr ∈ pc.held) : ptr ∈ ((s.goto t pc).threads t).held := by
  rwa [goto_self]

theorem nodup_goto (h : ∀ t, (s.threads t).held.Nodup) (hpc : pc.held.Nodup) (t' : ℕ) :
    ((s.goto t pc).threads t').held.Nodup := by
  by_cases ht : t' = t
  · subst ht
    rwa [goto_self]
  · rw [goto_of_ne s pc ht]
    exact h t'

theorem held_before (hpc : ∀ p ∈ pc.held, p ∈ (s.threads t).held)
    (h : ptr ∈ ((s.goto t pc).threads t').held) : ptr ∈ (s.threads t').held := by
  rcases mem_held_goto h with ⟨rfl, hptr⟩ | ⟨_, hptr⟩
  · exact hpc ptr hptr
  · exact hptr

namespace Owned

theorem goto (h : Owned s) (hpc : pc.held = (s.threads t).held) : Owned (s.goto t pc) := by
  have hbefore : ∀ t' ptr, ptr ∈ ((s.goto t pc).threads t').held → ptr ∈ (s.threads t').held :=
    fun _ _ => held_before fun p hp => hpc ▸ hp
  constructor
  · exact h.live
  · exact h.users
  · intro t' ptr hptr
    exact h.held t' ptr (hbefore t' ptr hptr)
  · exact nodup_goto h.once (hpc ▸ h.once t)
  · intro t₁ t₂ ptr h₁ h₂
    exact h.alone t₁ t₂ ptr (hbefore t₁ ptr h₁) (hbefore t₂ ptr h₂)
  · intro t' ptr hptr
    exact h.apart t' ptr (hbefore t' ptr hptr)
  · intro ptr c hc
    rcases h.placed ptr c hc with ⟨t', hptr⟩ | ha
    · refine .inl ⟨t', ?_⟩
      by_cases ht : t' = t
      · subst ht
        exact held_goto_self (hpc ▸ hptr)
      · rwa [goto_of_ne s pc ht]
    · exact .inr ha
  · exact h.fds
  · exact h.opened

theorem conns_setConn (hc : s.conns ptr = some c) (hfd : c'.cnFd = c.cnFd) {p : ℕ} {d : Conn}
    (hd : (s.setConn ptr c').conns p = some d) : ∃ d', s.conns p = some d' ∧ d'.cnFd = d.cnFd := by
  by_cases hp : p = ptr
  · subst hp
    rw [setConn_self] at hd
    obtain rfl := Option.some.inj hd
    exact ⟨c, hc, hfd.symm⟩
  · rw [setConn_of_ne s c' hp] at hd
    exact ⟨d, hd, rfl⟩

theorem setConn (h : Owned s) (hc : s.conns ptr = some c) (hfd : c'.cnFd = c.cnFd) :
    Owned (s.setConn ptr c') := by
  constructor
  · intro a ha
    obtain ⟨d, hd, hda⟩ := h.live a ha
    by_cases hp : a.user = ptr
    · refine ⟨c', ?_, ?_⟩
      · rw [hp, setConn_self]
      · rw [hp, hc] at hd
        obtain rfl := Option.some.inj hd
        exact hfd.trans hda
    · exact ⟨d, (setConn_of_ne s c' hp).trans hd, hda⟩
  · exact h.users
  · intro t p hp
    by_cases hptr : p = ptr
    · rw [hptr, setConn_self]
      exact Option.some_ne_none c'
    · rw [setConn_of_ne s c' hptr]
      exact h.held t p hp
  · exact h.once
  · exact h.alone
  · exact h.apart
  · intro p d hd
    obtain ⟨d', hd', _⟩ := conns_setConn hc hfd hd
    exact h.placed p d' hd'
  · intro p p' d d' hd hd' hdd
    obtain ⟨e, he, hed⟩ := conns_setConn hc hfd hd
    obtain ⟨e', he', hed'⟩ := conns_setConn hc hfd hd'
    exact h.fds p p' e e' he he' (by rw [hed, hed', hdd])
  · intro p d hd
    obtain ⟨e, he, hed⟩ := conns_setConn hc hfd hd
    rw [← hed]
    exact h.opened p e he

theorem unassociated (h : Owned s) (hptr : ptr ∈ (s.threads t).held)
    (hc : s.conns ptr = some c) : (s.port.filter fun a => a.fd ≠ c.cnFd) = s.port := by
  apply List.filter_eq_self.mpr
  intro a ha
  obtain ⟨d, hd, hda⟩ := h.live a ha
  have hne : a.fd ≠ c.cnFd := by
    intro heq
    exact h.apart t ptr hptr a ha (h.fds _ _ d c hd hc (hda.trans heq))
  exact decide_eq_true hne

theorem closeConn (h : Owned s) (ht : (s.threads t).held = [ptr]) (hc : s.conns ptr = some c) :
    Owned ((s.closeConn ptr c).goto t .portGet) := by
  have hptr : ptr ∈ (s.threads t).held := ht ▸ List.mem_singleton.mpr rfl
  have hport : ((s.closeConn ptr c).goto t .portGet).port = s.port := h.unassociated hptr hc
  have hconns : ∀ p, p ≠ ptr → ((s.closeConn ptr c).goto t .portGet).conns p = s.conns p :=
    fun p hp => update_of_ne hp ..
  have hgone : ((s.closeConn ptr c).goto t .portGet).conns ptr = none := update_self ..
  have hsome : ∀ p d, ((s.closeConn ptr c).goto t .portGet).conns p = some d →
      p ≠ ptr ∧ s.conns p = some d := by
    intro p d hd
    have hp : p ≠ ptr := by
      rintro rfl
      rw [hgone] at hd
      cases hd
    exact ⟨hp, hconns p hp ▸ hd⟩
  have hother : ∀ t' p, p ∈ (((s.closeConn ptr c).goto t .portGet).threads t').held →
      t' ≠ t ∧ p ∈ (s.threads t').held := by
    intro t' p hp
    rcases mem_held_goto hp with ⟨_, hnone⟩ | hp
    · cases hnone
    · exact hp
  constructor
  · intro a ha
    rw [hport] at ha
    rw [hconns _ (h.apart t ptr hptr a ha)]
    exact h.live a ha
  · rw [hport]
    exact h.users
  · intro t' p hp
    obtain ⟨hne, hheld⟩ := hother t' p hp
    rw [hconns p]
    · exact h.held t' p hheld
    · rintro rfl
      exact hne (h.alone t' t p hheld hptr)
  · exact nodup_goto (s := s.closeConn ptr c) h.once List.nodup_nil
  · intro t₁ t₂ p h₁ h₂
    exact h.alone t₁ t₂ p (hother t₁ p h₁).2 (hother t₂ p h₂).2
  · intro t' p hp
    rw [hport]
    exact h.apart t' p (hother t' p hp).2
  · intro p d hd
    obtain ⟨hp, hd⟩ := hsome p d hd
    rw [hport]
    rcases h.placed p d hd with ⟨t', hheld⟩ | ha
    · have hne : t' ≠ t := by
        rintro rfl
        rw [ht] at hheld
        exact hp (List.mem_singleton.mp hheld)
      refine .inl ⟨t', ?_⟩
      rw [goto_of_ne _ _ hne]
      exact hheld
    · exact .inr ha
  · intro p p' d d' hd hd'
    exact h.fds p p' d d' (hsome p d hd).2 (hsome p' d' hd').2
  · intro p d hd
    obtain ⟨hp, hd⟩ := hsome p d hd
    apply (List.mem_erase_of_ne ?_).mpr (h.opened p d hd)
    intro heq
    exact hp (h.fds p ptr d c hd hc heq)

theorem portAssociate (h : Owned s) (hc : s.conns ptr = some c)
    (ht : (s.threads t).held.Perm (ptr :: pc.held)) :
    Owned ((s.portAssociate c.cnFd events ptr).goto t pc) := by
  have hptr : ptr ∈ (s.threads t).held := ht.mem_iff.mpr List.mem_cons_self
  obtain ⟨hpc, honce⟩ := List.nodup_cons.mp (ht.nodup_iff.mp (h.once t))
  have hport : ((s.portAssociate c.cnFd events ptr).goto t pc).port =
      ⟨c.cnFd, events, ptr⟩ :: s.port := by
    change _ :: (s.port.filter fun a => a.fd ≠ c.cnFd) = _
    rw [h.unassociated hptr hc]
  have hbefore : ∀ t' p, p ∈ (((s.portAssociate c.cnFd events ptr).goto t pc).threads t').held →
      p ∈ (s.threads t').held ∧ p ≠ ptr := by
    intro t' p hp
    rcases mem_held_goto hp with ⟨rfl, hmem⟩ | ⟨hne, hmem⟩
    · refine ⟨ht.mem_iff.mpr (List.mem_cons_of_mem ptr hmem), ?_⟩
      rintro rfl
      exact hpc hmem
    · refine ⟨hmem, ?_⟩
      rintro rfl
      exact hne (h.alone t' t p hmem hptr)
  constructor
  · intro a ha
    rw [hport] at ha
    rcases List.mem_cons.mp ha with rfl | ha
    · exact ⟨c, hc, rfl⟩
    · exact h.live a ha
  · rw [hport]
    refine List.nodup_cons.mpr ⟨?_, h.users⟩
    intro hmem
    obtain ⟨a, ha, hauser⟩ := List.mem_map.mp hmem
    exact h.apart t ptr hptr a ha hauser
  · intro t' p hp
    exact h.held t' p (hbefore t' p hp).1
  · exact nodup_goto (s := s.portAssociate c.cnFd events ptr) h.once honce
  · intro t₁ t₂ p h₁ h₂
    exact h.alone t₁ t₂ p (hbefore t₁ p h₁).1 (hbefore t₂ p h₂).1
  · intro t' p hp a ha
    obtain ⟨hp, hne⟩ := hbefore t' p hp
    rw [hport] at ha
    rcases List.mem_cons.mp ha with rfl | ha
    · exact hne.symm
    · exact h.apart t' p hp a ha
  · intro p d hd
    rw [hport]
    by_cases hp : p = ptr
    · exact .inr ⟨_, List.mem_cons_self, hp.symm⟩
    · rcases h.placed p d hd with ⟨t', hheld⟩ | ⟨a, ha, hauser⟩
      · refine .inl ⟨t', ?_⟩
        by_cases htt : t' = t
        · subst htt
          apply held_goto_self
          exact List.mem_of_ne_of_mem hp (ht.mem_iff.mp hheld)
        · rw [goto_of_ne _ _ htt]
          exact hheld
      · exact .inr ⟨a, List.mem_cons_of_mem _ ha, hauser⟩
  · exact h.fds
  · exact h.opened

theorem eq_of_user (h : Owned s) {a b : Association} (ha : a ∈ s.port) (hb : b ∈ s.port)
    (huser : a.user = b.user) : a = b :=
  List.inj_on_of_nodup_map h.users ha hb huser

/-- An event takes the association out and gives its connection to the thread. -/
theorem deliver (h : Owned s) {a : Association} (ha : a ∈ s.port)
    (ht : (s.threads t).held = []) (hpc : pc.held = [a.user]) :
    Owned ({ s with port := s.port.filter fun b => b.fd ≠ a.fd }.goto t pc) := by
  have hport : ∀ b ∈ s.port.filter fun b => b.fd ≠ a.fd, b ∈ s.port ∧ b.user ≠ a.user := by
    intro b hb
    obtain ⟨hb, hne⟩ := List.mem_filter.mp hb
    refine ⟨hb, ?_⟩
    intro huser
    obtain rfl := h.eq_of_user hb ha huser
    exact of_decide_eq_true hne rfl
  have hbefore : ∀ t' p,
      p ∈ (({ s with port := s.port.filter fun b => b.fd ≠ a.fd }.goto t pc).threads t').held →
        (t' = t ∧ p = a.user) ∨ (t' ≠ t ∧ p ∈ (s.threads t').held ∧ p ≠ a.user) := by
    intro t' p hp
    rcases mem_held_goto hp with ⟨rfl, hmem⟩ | ⟨hne, hmem⟩
    · rw [hpc] at hmem
      exact .inl ⟨rfl, List.mem_singleton.mp hmem⟩
    · exact .inr ⟨hne, hmem, (h.apart t' p hmem a ha).symm⟩
  constructor
  · intro b hb
    exact h.live b (hport b hb).1
  · exact h.users.sublist (List.filter_sublist.map _)
  · intro t' p hp
    rcases hbefore t' p hp with ⟨_, rfl⟩ | ⟨_, hp, _⟩
    · obtain ⟨d, hd, _⟩ := h.live a ha
      intro hnone
      exact Option.some_ne_none d (hd.symm.trans hnone)
    · exact h.held t' p hp
  · refine nodup_goto (s := { s with port := s.port.filter fun b => b.fd ≠ a.fd }) h.once ?_
    rw [hpc]
    exact List.nodup_singleton _
  · intro t₁ t₂ p h₁ h₂
    rcases hbefore t₁ p h₁ with ⟨rfl, hp⟩ | ⟨_, h₁, hne⟩
    · rcases hbefore t₂ p h₂ with ⟨rfl, _⟩ | ⟨_, _, hne⟩
      · rfl
      · exact absurd hp hne
    · rcases hbefore t₂ p h₂ with ⟨_, hp⟩ | ⟨_, h₂, _⟩
      · exact absurd hp hne
      · exact h.alone t₁ t₂ p h₁ h₂
  · intro t' p hp b hb
    rcases hbefore t' p hp with ⟨_, rfl⟩ | ⟨_, hp, _⟩
    · exact (hport b hb).2
    · exact h.apart t' p hp b (hport b hb).1
  · intro p d hd
    by_cases hp : p = a.user
    · refine .inl ⟨t, held_goto_self ?_⟩
      rw [hpc, hp]
      exact List.mem_singleton.mpr rfl
    · rcases h.placed p d hd with ⟨t', hheld⟩ | ⟨b, hb, hbuser⟩
      · refine .inl ⟨t', ?_⟩
        have htt : t' ≠ t := by
          rintro rfl
          rw [ht] at hheld
          cases hheld
        rw [goto_of_ne _ _ htt]
        exact hheld
      · refine .inr ⟨b, List.mem_filter.mpr ⟨hb, decide_eq_true ?_⟩, hbuser⟩
        intro hfd
        obtain ⟨e, he, hea⟩ := h.live a ha
        obtain ⟨e', he', heb⟩ := h.live b hb
        have huser : b.user = a.user := h.fds _ _ e' e he' he (by rw [hea, heb, hfd])
        exact hp (hbuser.symm.trans huser)
  · exact h.fds
  · exact h.opened

theorem accept (h : Owned s) (hnew : s.conns new = none) (hfd : fd ∉ s.openFds)
    (ht : pc.held.Perm (new :: (s.threads t).held)) :
    Owned ({ s.setConn new (.create .echoFunc fd) with openFds := fd :: s.openFds }.goto t pc) := by
  have hpc : ∀ p, p ∈ pc.held ↔ p = new ∨ p ∈ (s.threads t).held := by
    intro p
    rw [ht.mem_iff, List.mem_cons]
  have honce : pc.held.Nodup := by
    rw [ht.nodup_iff, List.nodup_cons]
    exact ⟨fun hnewheld => h.held t new hnewheld hnew, h.once t⟩
  have hconns : ∀ p d,
      ({ s.setConn new (.create .echoFunc fd) with openFds := fd :: s.openFds }.goto t pc).conns p =
        some d → (p = new ∧ d.cnFd = fd) ∨ s.conns p = some d := by
    intro p d hd
    by_cases hp : p = new
    · subst hp
      change (s.setConn p (.create .echoFunc fd)).conns p = some d at hd
      rw [setConn_self] at hd
      obtain rfl := Option.some.inj hd
      exact .inl ⟨rfl, rfl⟩
    · exact .inr ((setConn_of_ne s _ hp).symm.trans hd)
  have hfree : ∀ a ∈ s.port, a.user ≠ new := by
    intro a ha hauser
    obtain ⟨d, hd, _⟩ := h.live a ha
    rw [hauser, hnew] at hd
    cases hd
  have hbefore : ∀ t' p,
      p ∈ (({ s.setConn new (.create .echoFunc fd) with openFds := fd :: s.openFds }.goto t
        pc).threads t').held → (t' = t ∧ p = new) ∨ (p ∈ (s.threads t').held ∧ p ≠ new) := by
    intro t' p hp
    have hheld : ∀ t', p ∈ (s.threads t').held → p ≠ new := by
      rintro t' hmem rfl
      exact h.held t' p hmem hnew
    rcases mem_held_goto hp with ⟨rfl, hmem⟩ | ⟨_, hmem⟩
    · rcases (hpc p).mp hmem with hmem | hmem
      · exact .inl ⟨rfl, hmem⟩
      · exact .inr ⟨hmem, hheld t' hmem⟩
    · exact .inr ⟨hmem, hheld t' hmem⟩
  constructor
  · intro a ha
    obtain ⟨d, hd, hda⟩ := h.live a ha
    exact ⟨d, (setConn_of_ne s _ (hfree a ha)).trans hd, hda⟩
  · exact h.users
  · intro t' p hp
    rcases hbefore t' p hp with ⟨_, rfl⟩ | ⟨hp, hne⟩
    · change (s.setConn p _).conns p ≠ none
      rw [setConn_self]
      exact Option.some_ne_none _
    · change (s.setConn new _).conns p ≠ none
      rw [setConn_of_ne s _ hne]
      exact h.held t' p hp
  · exact nodup_goto (s := { s.setConn new (.create .echoFunc fd) with
      openFds := fd :: s.openFds }) h.once honce
  · intro t₁ t₂ p h₁ h₂
    rcases hbefore t₁ p h₁ with ⟨rfl, hp⟩ | ⟨h₁, hne⟩
    · rcases hbefore t₂ p h₂ with ⟨rfl, _⟩ | ⟨_, hne⟩
      · rfl
      · exact absurd hp hne
    · rcases hbefore t₂ p h₂ with ⟨_, hp⟩ | ⟨h₂, _⟩
      · exact absurd hp hne
      · exact h.alone t₁ t₂ p h₁ h₂
  · intro t' p hp a ha
    rcases hbefore t' p hp with ⟨_, rfl⟩ | ⟨hp, _⟩
    · exact hfree a ha
    · exact h.apart t' p hp a ha
  · intro p d hd
    rcases hconns p d hd with ⟨hp, _⟩ | hd
    · exact .inl ⟨t, held_goto_self ((hpc p).mpr (.inl hp))⟩
    · rcases h.placed p d hd with ⟨t', hheld⟩ | ha
      · refine .inl ⟨t', ?_⟩
        by_cases htt : t' = t
        · subst htt
          exact held_goto_self ((hpc p).mpr (.inr hheld))
        · rw [goto_of_ne _ _ htt]
          exact hheld
      · exact .inr ha
  · intro p p' d d' hd hd' hdd
    rcases hconns p d hd with ⟨hp, hdfd⟩ | hd
    · rcases hconns p' d' hd' with ⟨hp', _⟩ | hd'
      · rw [hp, hp']
      · exact absurd (h.opened p' d' hd') (by rwa [← hdd, hdfd])
    · rcases hconns p' d' hd' with ⟨_, hdfd⟩ | hd'
      · exact absurd (h.opened p d hd) (by rwa [hdd, hdfd])
      · exact h.fds p p' d d' hd hd' hdd
  · intro p d hd
    rcases hconns p d hd with ⟨_, hdfd⟩ | hd
    · rw [hdfd]
      exact List.mem_cons_self
    · exact List.mem_cons_of_mem fd (h.opened p d hd)

end Owned

/-! ## What a step does -/

/-- What a thread can do in one step. -/
inductive Move (s : Server) (t : ℕ) : Server → Prop
  | event (a : Association) (c : Conn) : s.threads t = .portGet → a ∈ s.port →
      s.conns a.user = some c →
      Move s t ({ s with port := s.port.filter fun b => b.fd ≠ a.fd }.goto t (entry a.user c))
  | alert : s.threads t = .portGet → Move s t (s.goto t .exited)
  | fill (ptr : ℕ) (c : Conn) (bytes : List UInt8) : s.threads t = .echoRead ptr →
      s.conns ptr = some c → 0 < bytes.length → bytes.length ≤ blen →
      Move s t ((s.setConn ptr (c.fill bytes)).goto t (.echoWrite ptr))
  | drain (ptr : ℕ) (c : Conn) (n : ℕ) : s.threads t = .echoWrite ptr →
      s.conns ptr = some c → n ≤ c.cnBcnt →
      Move s t ((s.setConn ptr (c.drain n)).goto t
        (.echoAssociate ptr (if n < c.cnBcnt then .pollout else .pollin)))
  | close (ptr : ℕ) (c : Conn) : s.threads t = .echoRead ptr ∨ s.threads t = .echoWrite ptr →
      s.conns ptr = some c → Move s t ((s.closeConn ptr c).goto t .portGet)
  | associate (ptr : ℕ) (c : Conn) (events : Poll) : s.threads t = .echoAssociate ptr events →
      s.conns ptr = some c → Move s t ((s.portAssociate c.cnFd events ptr).goto t .portGet)
  | associateNew (ptr new : ℕ) (c : Conn) : s.threads t = .listenAssociateNew ptr new →
      s.conns new = some c →
      Move s t ((s.portAssociate c.cnFd .pollin new).goto t (.listenAssociate ptr))
  | listenAssociate (ptr : ℕ) (c : Conn) : s.threads t = .listenAssociate ptr →
      s.conns ptr = some c → Move s t ((s.portAssociate c.cnFd .pollin ptr).goto t .portGet)
  | accept (ptr new fd : ℕ) : s.threads t = .listenAccept ptr → s.conns new = none →
      fd ∉ s.openFds →
      Move s t ({ s.setConn new (.create .echoFunc fd) with openFds := fd :: s.openFds }.goto t
        (.listenAssociateNew ptr new))

theorem move_of_step {a : Action} (h : step s a = some s') : ∃ t, Move s t s' := by
  cases a
  all_goals simp only [step, Option.bind_eq_bind] at h
  case event t fd =>
    split at h <;> try cases h
    next ht =>
    obtain ⟨a, ha, h⟩ := Option.bind_eq_some_iff.mp h
    obtain ⟨c, hc, h⟩ := Option.bind_eq_some_iff.mp h
    obtain rfl := Option.some.inj h
    have hfd : decide (a.fd = fd) = true :=
      List.find?_some (p := fun b : Association => decide (b.fd = fd)) ha
    obtain rfl := of_decide_eq_true hfd
    exact ⟨t, .event a c ht (List.mem_of_find?_eq_some ha) hc⟩
  case alert t =>
    split at h <;> cases h
    next ht => exact ⟨t, .alert ht⟩
  case read t red =>
    split at h <;> try cases h
    next ptr ht =>
    obtain ⟨c, hc, h⟩ := Option.bind_eq_some_iff.mp h
    split at h
    · split at h <;> cases h
      next bytes hlen => exact ⟨t, .fill ptr c bytes ht hc hlen.1 hlen.2⟩
    · cases h
      exact ⟨t, .close ptr c (.inl ht) hc⟩
  case write t wrote =>
    split at h <;> try cases h
    next ptr ht =>
    obtain ⟨c, hc, h⟩ := Option.bind_eq_some_iff.mp h
    split at h
    · split at h <;> cases h
      next n hn => exact ⟨t, .drain ptr c n ht hc hn⟩
    · cases h
      exact ⟨t, .drain ptr c 0 ht hc (Nat.zero_le _)⟩
    · cases h
      exact ⟨t, .close ptr c (.inr ht) hc⟩
  case associate t =>
    split at h <;> try cases h
    all_goals obtain ⟨c, hc, h⟩ := Option.bind_eq_some_iff.mp h; cases h
    next ptr events ht => exact ⟨t, .associate ptr c events ht hc⟩
    next ptr new ht => exact ⟨t, .associateNew ptr new c ht hc⟩
    next ptr ht => exact ⟨t, .listenAssociate ptr c ht hc⟩
  case accept t new fd =>
    split at h <;> try cases h
    next ptr ht =>
    split at h <;> cases h
    next hnew => exact ⟨t, .accept ptr new fd ht hnew.1 hnew.2⟩

theorem entry_held (ptr : ℕ) (c : Conn) : (entry ptr c).held = [ptr] := by
  unfold entry
  split
  · rfl
  · split
    · rfl
    · rfl

theorem drain_cnFd (c : Conn) (n : ℕ) : (c.drain n).cnFd = c.cnFd := by
  dsimp only [Conn.drain]
  split
  · split
    · rfl
    · rfl
  · rfl

theorem Owned.move (h : Owned s) (hmove : Move s t s') : Owned s' := by
  cases hmove with
  | event a c ht ha hc =>
      refine h.deliver ha ?_ (entry_held a.user c)
      rw [ht]
      rfl
  | alert ht =>
      apply h.goto
      rw [ht]
      rfl
  | fill ptr c bytes ht hc _ _ =>
      have hset : Owned (s.setConn ptr (c.fill bytes)) := h.setConn hc rfl
      apply hset.goto
      change _ = (s.threads t).held
      rw [ht]
      rfl
  | drain ptr c n ht hc _ =>
      apply (h.setConn hc (drain_cnFd c n)).goto
      change _ = (s.threads t).held
      rw [ht]
      rfl
  | close ptr c ht hc =>
      apply h.closeConn _ hc
      rcases ht with ht | ht
      · rw [ht]
        rfl
      · rw [ht]
        rfl
  | associate ptr c events ht hc | listenAssociate ptr c ht hc =>
      apply h.portAssociate hc
      rw [ht]
      exact .refl _
  | associateNew ptr new c ht hc =>
      apply h.portAssociate hc
      rw [ht]
      exact .swap new ptr []
  | accept ptr new fd ht hnew hfd =>
      apply h.accept hnew hfd
      rw [ht]
      exact .swap new ptr []

/-! ## What a connection has echoed -/

/-- What has been read is what has been sent and the bytes to be sent. -/
structure Conn.Echoes (c : Conn) : Prop where
  rest : c.sent ++ c.cnBuffer.take c.cnBcnt = c.read
  size : c.cnBuffer.length = blen
  bound : c.cnBcnt ≤ blen
  listens : c.cnCallback = .listenFunc → c.cnBcnt = 0

theorem Conn.Echoes.sent_le (h : c.Echoes) : c.sent <+: c.read := ⟨_, h.rest⟩

theorem create_echoes (cnCallback : Callback) (fd : ℕ) : (Conn.create cnCallback fd).Echoes := by
  constructor
  · rfl
  · exact List.length_replicate
  · exact Nat.zero_le _
  · intro _
    rfl

theorem fill_echoes {bytes : List UInt8} (h : c.Echoes) (hcallback : c.cnCallback = .echoFunc)
    (hzero : c.cnBcnt = 0) (hlen : bytes.length ≤ blen) : (c.fill bytes).Echoes := by
  have hsent : c.sent = c.read := by
    have hrest := h.rest
    rwa [hzero, List.take_zero, List.append_nil] at hrest
  constructor
  · change c.sent ++ (bytes ++ c.cnBuffer.drop bytes.length).take bytes.length = c.read ++ bytes
    rw [List.take_left, hsent]
  · change (bytes ++ c.cnBuffer.drop bytes.length).length = blen
    rw [List.length_append, List.length_drop, h.size]
    omega
  · exact hlen
  · intro hlisten
    exact absurd (hcallback.symm.trans hlisten) (by decide)

theorem drain_cnBcnt (c : Conn) (n : ℕ) : (c.drain n).cnBcnt = c.cnBcnt - n := by
  dsimp only [Conn.drain]
  split
  · split
    · rfl
    · next hzero => rw [not_not.mp hzero, Nat.sub_zero]
  · next hle => exact (Nat.sub_eq_zero_of_le (Nat.le_of_not_lt hle)).symm

theorem drain_sent (c : Conn) (n : ℕ) : (c.drain n).sent = c.sent ++ c.cnBuffer.take n := by
  dsimp only [Conn.drain]
  split
  · split
    · rfl
    · rfl
  · rfl

theorem drain_read (c : Conn) (n : ℕ) : (c.drain n).read = c.read := by
  dsimp only [Conn.drain]
  split
  · split
    · rfl
    · rfl
  · rfl

theorem drain_cnCallback (c : Conn) (n : ℕ) : (c.drain n).cnCallback = c.cnCallback := by
  dsimp only [Conn.drain]
  split
  · split
    · rfl
    · rfl
  · rfl

theorem drain_length (n : ℕ) (hsize : c.cnBuffer.length = blen) (hbound : c.cnBcnt ≤ blen) :
    (c.drain n).cnBuffer.length = blen := by
  dsimp only [Conn.drain]
  split
  · split
    · rw [List.length_append, List.length_take, List.length_drop, List.length_drop, hsize]
      omega
    · exact hsize
  · exact hsize

theorem drain_rest (n : ℕ) (hsize : c.cnBuffer.length = blen) (hbound : c.cnBcnt ≤ blen) :
    (c.drain n).cnBuffer.take (c.cnBcnt - n) = (c.cnBuffer.drop n).take (c.cnBcnt - n) := by
  dsimp only [Conn.drain]
  split
  · split
    · have hlen : ((c.cnBuffer.drop n).take (c.cnBcnt - n)).length = c.cnBcnt - n := by
        rw [List.length_take, List.length_drop, hsize]
        omega
      exact List.take_left' hlen
    · next hzero => rw [not_not.mp hzero, List.drop_zero]
  · next hle =>
    rw [Nat.sub_eq_zero_of_le (Nat.le_of_not_lt hle), List.take_zero, List.take_zero]

theorem drain_echoes {n : ℕ} (h : c.Echoes) (hn : n ≤ c.cnBcnt) : (c.drain n).Echoes := by
  constructor
  · rw [drain_sent, drain_read, drain_cnBcnt c n, drain_rest n h.size h.bound, List.append_assoc,
      ← List.take_add, Nat.add_sub_cancel' hn]
    exact h.rest
  · exact drain_length n h.size h.bound
  · rw [drain_cnBcnt c n]
    exact (Nat.sub_le ..).trans h.bound
  · intro hlisten
    rw [drain_cnCallback] at hlisten
    rw [drain_cnBcnt c n, h.listens hlisten, Nat.zero_sub]

theorem drain_awaited (c : Conn) (n : ℕ) :
    (c.drain n).awaited = if n < c.cnBcnt then .pollout else .pollin := by
  unfold Conn.awaited
  rw [drain_cnBcnt c n]
  by_cases hlt : n < c.cnBcnt
  · rw [if_pos hlt, if_pos (Nat.sub_pos_of_lt hlt)]
  · rw [if_neg hlt, if_neg (by omega)]

theorem awaited_of_zero (h : c.cnBcnt = 0) : c.awaited = .pollin := by
  unfold Conn.awaited
  rw [if_neg (by omega)]

/-- What the place of a thread says of the connections that it holds. -/
def Pc.Fits (conns : ℕ → Option Conn) : Pc → Prop
  | .portGet => True
  | .exited => True
  | .echoRead ptr => ∀ c, conns ptr = some c → c.cnCallback = .echoFunc ∧ c.cnBcnt = 0
  | .echoWrite _ => True
  | .echoAssociate ptr events => ∀ c, conns ptr = some c → events = c.awaited
  | .listenAccept ptr => ∀ c, conns ptr = some c → c.awaited = .pollin
  | .listenAssociateNew ptr new =>
      (∀ c, conns ptr = some c → c.awaited = .pollin) ∧
        ∀ c, conns new = some c → c.awaited = .pollin
  | .listenAssociate ptr => ∀ c, conns ptr = some c → c.awaited = .pollin

theorem Pc.Fits.congr {conns' : ℕ → Option Conn} (h : pc.Fits conns)
    (hconns : ∀ p ∈ pc.held, conns' p = conns p) : pc.Fits conns' := by
  cases pc with
  | portGet => exact h
  | exited => exact h
  | echoWrite ptr => exact h
  | echoRead ptr | echoAssociate ptr events | listenAccept ptr | listenAssociate ptr =>
      intro c hc
      rw [hconns ptr (List.mem_singleton.mpr rfl)] at hc
      exact h c hc
  | listenAssociateNew ptr new =>
      refine ⟨?_, ?_⟩
      · intro c hc
        rw [hconns ptr List.mem_cons_self] at hc
        exact h.1 c hc
      · intro c hc
        rw [hconns new (List.mem_cons_of_mem ptr (List.mem_singleton.mpr rfl))] at hc
        exact h.2 c hc

theorem entry_fits (hc : conns ptr = some c) (h : c.Echoes) : (entry ptr c).Fits conns := by
  unfold entry
  split
  · next hcallback =>
    intro d hd
    obtain rfl := Option.some.inj (hc.symm.trans hd)
    exact awaited_of_zero (h.listens hcallback)
  · next hcallback =>
    split
    · next hzero =>
      intro d hd
      obtain rfl := Option.some.inj (hc.symm.trans hd)
      exact ⟨hcallback, hzero⟩
    · trivial

structure Echoing (s : Server) : Prop where
  echoes : ∀ ptr c, s.conns ptr = some c → c.Echoes
  awaits : ∀ a ∈ s.port, ∀ c, s.conns a.user = some c → a.events = c.awaited
  fits : ∀ t, (s.threads t).Fits s.conns
  finished : ∀ f ∈ s.finished, f.sent <+: f.read

theorem echoing_create (lsock : ℕ) : Echoing (Server.create lsock) := by
  constructor
  · intro p c hc
    rw [(conns_create hc).2]
    exact create_echoes ..
  · intro a ha c hc
    rw [List.mem_singleton.mp ha, (conns_create hc).2]
    rfl
  · intro t
    trivial
  · intro f hf
    cases hf

theorem fits_goto (h : ∀ t', (s.threads t').Fits s.conns)
    (hconns : ∀ t', t' ≠ t → ∀ p ∈ (s.threads t').held, conns p = s.conns p)
    (hpc : pc.Fits conns) (t' : ℕ) : (update s.threads t pc t').Fits conns := by
  by_cases ht : t' = t
  · subst ht
    rwa [update_self]
  · rw [update_of_ne ht]
    exact (h t').congr (hconns t' ht)

namespace Echoing

theorem goto (h : Echoing s) (hpc : pc.Fits s.conns) : Echoing (s.goto t pc) := by
  constructor
  · exact h.echoes
  · exact h.awaits
  · exact fits_goto (s := s) h.fits (fun _ _ _ _ => rfl) hpc
  · exact h.finished

theorem setConn (h : Echoing s) (howned : Owned s) (hptr : ptr ∈ (s.threads t).held)
    (hc' : c'.Echoes) (hpc : pc.Fits (s.setConn ptr c').conns) :
    Echoing ((s.setConn ptr c').goto t pc) := by
  constructor
  · intro p d hd
    by_cases hp : p = ptr
    · subst hp
      obtain rfl := Option.some.inj ((setConn_self s p c').symm.trans hd)
      exact hc'
    · exact h.echoes p d ((setConn_of_ne s c' hp).symm.trans hd)
  · intro a ha d hd
    have huser : a.user ≠ ptr := howned.apart t ptr hptr a ha
    exact h.awaits a ha d ((setConn_of_ne s c' huser).symm.trans hd)
  · refine fits_goto (s := s) h.fits ?_ hpc
    intro t' ht p hp
    have hne : p ≠ ptr := by
      rintro rfl
      exact ht (howned.alone t' t p hp hptr)
    exact setConn_of_ne s c' hne
  · exact h.finished

theorem closeConn (h : Echoing s) (howned : Owned s) (hptr : ptr ∈ (s.threads t).held)
    (hc : s.conns ptr = some c) : Echoing ((s.closeConn ptr c).goto t .portGet) := by
  have hconns : ∀ p d, ((s.closeConn ptr c).goto t .portGet).conns p = some d →
      s.conns p = some d := by
    intro p d hd
    change update s.conns ptr none p = some d at hd
    by_cases hp : p = ptr
    · subst hp
      rw [update_self] at hd
      cases hd
    · rwa [update_of_ne hp] at hd
  constructor
  · intro p d hd
    exact h.echoes p d (hconns p d hd)
  · intro a ha d hd
    exact h.awaits a (List.mem_of_mem_filter ha) d (hconns _ d hd)
  · refine fits_goto (s := s) h.fits ?_ trivial
    intro t' ht p hp
    have hne : p ≠ ptr := by
      rintro rfl
      exact ht (howned.alone t' t p hp hptr)
    exact update_of_ne hne ..
  · intro f hf
    rcases List.mem_cons.mp hf with rfl | hf
    · exact (h.echoes ptr c hc).sent_le
    · exact h.finished f hf

theorem portAssociate (h : Echoing s) (hc : s.conns ptr = some c) (hevents : events = c.awaited)
    (hpc : pc.Fits s.conns) : Echoing ((s.portAssociate c.cnFd events ptr).goto t pc) := by
  constructor
  · exact h.echoes
  · intro a ha d hd
    rcases List.mem_cons.mp ha with rfl | ha
    · obtain rfl := Option.some.inj (hc.symm.trans hd)
      exact hevents
    · exact h.awaits a (List.mem_of_mem_filter ha) d hd
  · exact fits_goto (s := s) h.fits (fun _ _ _ _ => rfl) hpc
  · exact h.finished

theorem accept (h : Echoing s) (howned : Owned s) (ht : s.threads t = .listenAccept ptr)
    (hnew : s.conns new = none) :
    Echoing ({ s.setConn new (.create .echoFunc fd) with openFds := fd :: s.openFds }.goto t
      (.listenAssociateNew ptr new)) := by
  have hfresh : ∀ t', ∀ p ∈ (s.threads t').held, p ≠ new := by
    rintro t' p hp rfl
    exact howned.held t' p hp hnew
  have hheld : ptr ∈ (s.threads t).held := by
    rw [ht]
    exact List.mem_singleton.mpr rfl
  have hlisten : (Pc.listenAccept ptr).Fits s.conns := ht ▸ h.fits t
  constructor
  · intro p d hd
    by_cases hp : p = new
    · subst hp
      obtain rfl := Option.some.inj ((setConn_self s p _).symm.trans hd)
      exact create_echoes ..
    · exact h.echoes p d ((setConn_of_ne s _ hp).symm.trans hd)
  · intro a ha d hd
    have hne : a.user ≠ new := by
      intro huser
      obtain ⟨e, he, _⟩ := howned.live a ha
      rw [huser, hnew] at he
      cases he
    exact h.awaits a ha d ((setConn_of_ne s _ hne).symm.trans hd)
  · refine fits_goto (s := s) h.fits ?_ ?_
    · intro t' _ p hp
      exact setConn_of_ne s _ (hfresh t' p hp)
    · refine ⟨?_, ?_⟩
      · intro d hd
        exact hlisten d ((setConn_of_ne s _ (hfresh t ptr hheld)).symm.trans hd)
      · intro d hd
        obtain rfl := Option.some.inj ((setConn_self s new _).symm.trans hd)
        rfl
  · exact h.finished

theorem move (h : Echoing s) (howned : Owned s) (hmove : Move s t s') : Echoing s' := by
  cases hmove with
  | event a c ht ha hc =>
      constructor
      · exact h.echoes
      · intro b hb
        exact h.awaits b (List.mem_of_mem_filter hb)
      · exact fits_goto (s := s) h.fits (fun _ _ _ _ => rfl) (entry_fits hc (h.echoes _ c hc))
      · exact h.finished
  | alert ht => exact h.goto trivial
  | fill ptr c bytes ht hc _ hlen =>
      have hread : (Pc.echoRead ptr).Fits s.conns := ht ▸ h.fits t
      obtain ⟨hcallback, hzero⟩ := hread c hc
      apply h.setConn howned
      · rw [ht]
        exact List.mem_singleton.mpr rfl
      · exact fill_echoes (h.echoes ptr c hc) hcallback hzero hlen
      · trivial
  | drain ptr c n ht hc hn =>
      apply h.setConn howned
      · rw [ht]
        exact List.mem_singleton.mpr rfl
      · exact drain_echoes (h.echoes ptr c hc) hn
      · intro d hd
        obtain rfl := Option.some.inj ((setConn_self s ptr _).symm.trans hd)
        exact (drain_awaited c n).symm
  | close ptr c ht hc =>
      apply h.closeConn howned _ hc
      rcases ht with ht | ht
      · rw [ht]
        exact List.mem_singleton.mpr rfl
      · rw [ht]
        exact List.mem_singleton.mpr rfl
  | associate ptr c events ht hc =>
      have hassociate : (Pc.echoAssociate ptr events).Fits s.conns := ht ▸ h.fits t
      exact h.portAssociate hc (hassociate c hc) trivial
  | associateNew ptr new c ht hc =>
      have hassociate : (Pc.listenAssociateNew ptr new).Fits s.conns := ht ▸ h.fits t
      exact h.portAssociate hc (hassociate.2 c hc).symm hassociate.1
  | listenAssociate ptr c ht hc =>
      have hassociate : (Pc.listenAssociate ptr).Fits s.conns := ht ▸ h.fits t
      exact h.portAssociate hc (hassociate c hc).symm trivial
  | accept ptr new fd ht hnew _ => exact h.accept howned ht hnew

end Echoing

/-! ## Whole runs -/

theorem invariant_of_run {acts : List Action}
    (hrun : RunsTo step Always (Server.create lsock) acts s) : Owned s ∧ Echoing s := by
  refine hrun.invariant (fun s => Owned s ∧ Echoing s) ⟨owned_create lsock, echoing_create lsock⟩ ?_
  rintro s a s' ⟨howned, hechoing⟩ _ hstep
  obtain ⟨t, hmove⟩ := move_of_step hstep
  exact ⟨howned.move hmove, hechoing.move howned hmove⟩

theorem Move.threads_of_ne (hmove : Move s t s') (ht : t' ≠ t) : s'.threads t' = s.threads t' := by
  cases hmove with
  | event a c _ _ _ | alert _ | fill ptr c bytes _ _ _ _ | drain ptr c n _ _ _ | close ptr c _ _
  | associate ptr c events _ _ | associateNew ptr new c _ _ | listenAssociate ptr c _ _
  | accept ptr new fd _ _ _ =>
      exact goto_of_ne _ _ ht

/-- The associations of a connection. -/
def associations (s : Server) (ptr : ℕ) : List Association :=
  s.port.filter fun a => a.user = ptr

theorem associations_eq (h : Owned s) {a : Association} (ha : a ∈ s.port) :
    associations s a.user = [a] := by
  have hmem : a ∈ associations s a.user := List.mem_filter.mpr ⟨ha, decide_eq_true rfl⟩
  have hall : ∀ b ∈ associations s a.user, b = a := by
    intro b hb
    obtain ⟨hb, huser⟩ := List.mem_filter.mp hb
    exact h.eq_of_user hb ha (of_decide_eq_true huser)
  have hnodup : (associations s a.user).Nodup := (h.users.of_map _).filter _
  apply List.perm_singleton.mp
  exact (List.perm_ext_iff_of_nodup hnodup (List.nodup_singleton a)).mpr fun b =>
    ⟨fun hb => List.mem_singleton.mpr (hall b hb), fun hb => List.mem_singleton.mp hb ▸ hmem⟩

theorem associations_nil (h : Owned s) (hptr : s.conns ptr = none) : associations s ptr = [] := by
  apply List.filter_eq_nil_iff.mpr
  intro a ha huser
  obtain ⟨c, hc, _⟩ := h.live a ha
  rw [of_decide_eq_true huser, hptr] at hc
  cases hc

theorem associated (howned : Owned s) (h : Echoing s) (hc : s.conns ptr = some c)
    (hfree : ∀ t, ptr ∉ (s.threads t).held) : associations s ptr = [⟨c.cnFd, c.awaited, ptr⟩] := by
  rcases howned.placed ptr c hc with ⟨t, hheld⟩ | ⟨a, ha, rfl⟩
  · exact absurd hheld (hfree t)
  · rw [associations_eq howned ha]
    obtain ⟨d, hd, hda⟩ := howned.live a ha
    obtain rfl := Option.some.inj (hc.symm.trans hd)
    rw [hda, ← h.awaits a ha c hc]

/-- In every run, the bytes sent on a connection are a prefix of the bytes read from it, the
rest are the first `cnBcnt` bytes of the buffer, and a connection that its callback leaves
has been closed or is associated once: for writing if bytes are left, else for reading. -/
theorem echoes_exactly {acts : List Action}
    (hrun : RunsTo step Always (Server.create lsock) acts s) :
    (∀ ptr c, s.conns ptr = some c →
      c.sent <+: c.read ∧ c.read = c.sent ++ c.cnBuffer.take c.cnBcnt ∧
        c.cnBuffer.length = blen ∧ c.cnBcnt ≤ blen) ∧
      (∀ f ∈ s.finished, f.sent <+: f.read) ∧
      (∀ ptr c, s.conns ptr = some c → (∀ t, ptr ∉ (s.threads t).held) →
        associations s ptr =
          [⟨c.cnFd, if 0 < c.cnBcnt then .pollout else .pollin, ptr⟩]) ∧
      ∀ a s', step s a = some s' →
        ∀ t, ∀ ptr ∈ (s.threads t).held, ptr ∉ (s'.threads t).held →
          (s'.conns ptr = none ∧ associations s' ptr = []) ∨
            ∃ c, s'.conns ptr = some c ∧ associations s' ptr =
              [⟨c.cnFd, if 0 < c.cnBcnt then .pollout else .pollin, ptr⟩] := by
  obtain ⟨howned, hechoing⟩ := invariant_of_run hrun
  refine ⟨?_, hechoing.finished, fun ptr c => associated howned hechoing, ?_⟩
  · intro ptr c hc
    have hechoes := hechoing.echoes ptr c hc
    exact ⟨hechoes.sent_le, hechoes.rest.symm, hechoes.size, hechoes.bound⟩
  · intro a s' hstep t ptr hptr hleft
    obtain ⟨t', hmove⟩ := move_of_step hstep
    have howned' : Owned s' := howned.move hmove
    cases hc : s'.conns ptr with
    | none => exact .inl ⟨rfl, associations_nil howned' hc⟩
    | some c =>
        refine .inr ⟨c, rfl, associated howned' (hechoing.move howned hmove) hc ?_⟩
        intro u hu
        by_cases hut : u = t
        · subst hut
          exact hleft hu
        · by_cases hut' : u = t'
          · subst hut'
            -- The thread that has moved is another one, so `t` has kept the connection.
            rw [hmove.threads_of_ne (Ne.symm hut)] at hleft
            exact hleft hptr
          · rw [hmove.threads_of_ne hut'] at hu
            exact hut (howned.alone u t ptr hu hptr)

/-- A client sends three bytes; the first `write` takes two of them, the next one none. -/
theorem echoes_exactly_partial :
    ∃ s, RunsTo step Always (Server.create 3)
        [.event 0 3, .accept 0 1 4, .associate 0, .associate 0, .event 1 4,
         .read 1 (.data [65, 66, 67]), .write 1 (.wrote 2), .associate 1, .event 0 4,
         .write 0 .eagain, .associate 0] s ∧
      ∃ c, s.conns 1 = some c ∧ c.sent = [65, 66] ∧ c.cnBuffer.take c.cnBcnt = [67] ∧
        c.read = c.sent ++ c.cnBuffer.take c.cnBcnt ∧ associations s 1 = [⟨4, .pollout, 1⟩] := by
  have hrun : RunsTo step Always (Server.create 3)
      [.event 0 3, .accept 0 1 4, .associate 0, .associate 0, .event 1 4,
       .read 1 (.data [65, 66, 67]), .write 1 (.wrote 2), .associate 1, .event 0 4,
       .write 0 .eagain, .associate 0] _ := RunsTo.of_isSome (by rfl)
  exact ⟨_, hrun, _, rfl, rfl, rfl, ((echoes_exactly hrun).1 1 _ rfl).2.1, rfl⟩

end MiscProjects.EventPorts

import Mathlib.Data.List.Basic
import Mathlib.Data.List.Nodup
import Mathlib.Logic.Function.Basic

/-!
# Doubly linked lists in a memory

A memory maps addresses to nodes with a `prev` and a `next` pointer and the rest
of their data; `none` stands for memory that is not allocated.  Following a
pointer into such memory makes an operation `none`.

`Chain mem prev head l` says that the pointers lead from `head` through the
addresses `l` and back; `Linked mem head tail l` that a further pointer leads to
the last of them.  Inserting at either end and removing keep chains, change the
nodes of the chain only, and leave the data of every node as they were.
-/

namespace MiscProjects.LinkedList

structure Node (α γ : Type*) where
  prev : Option α
  next : Option α
  data : γ

abbrev Memory (α γ : Type*) := α → Option (Node α γ)

variable {α γ : Type*} {mem mem' mem'' : Memory α γ} {a b c : α}
  {f : Node α γ → Node α γ} {prev head : Option α} {l : List α}

/-- The same nodes are there, with the same data. -/
def SameData (mem mem' : Memory α γ) : Prop :=
  ∀ c, (mem' c).map Node.data = (mem c).map Node.data

theorem SameData.refl (mem : Memory α γ) : SameData mem mem := fun _ => rfl

theorem SameData.trans (h : SameData mem mem') (h' : SameData mem' mem'') : SameData mem mem'' :=
  fun c => (h' c).trans (h c)

/-! ## Chains -/

/-- From `head` the `next` pointers lead through `l`, and the `prev` pointers back
to `prev`. -/
def Chain (mem : Memory α γ) : Option α → Option α → List α → Prop
  | _, head, [] => head = none
  | prev, head, a :: l =>
      head = some a ∧ ∃ node, mem a = some node ∧ node.prev = prev ∧
        Chain mem (some a) node.next l

/-- A chain depends on its own nodes only. -/
theorem Chain.congr (hchain : Chain mem prev head l) (hmem : ∀ c ∈ l, mem' c = mem c) :
    Chain mem' prev head l := by
  induction l generalizing prev head with
  | nil => exact hchain
  | cons a l ih =>
      obtain ⟨hhead, node, ha, hprev, hrest⟩ := hchain
      have ha' : mem' a = some node := (hmem a List.mem_cons_self).trans ha
      exact ⟨hhead, node, ha', hprev, ih hrest fun c hc => hmem c (List.mem_cons_of_mem a hc)⟩

theorem Chain.exists_of_mem (hchain : Chain mem prev head l) (ha : a ∈ l) :
    ∃ node, mem a = some node := by
  induction l generalizing prev head with
  | nil => simp at ha
  | cons b l ih =>
      obtain ⟨_, node, hb, _, hrest⟩ := hchain
      rcases List.mem_cons.mp ha with rfl | hl
      · exact ⟨node, hb⟩
      · exact ih hrest hl

variable {tail : Option α} {node : Node α γ}

/-- The pointers of a node in a chain stay in the chain. -/
theorem Chain.next_mem (hchain : Chain mem prev head l) (ha : a ∈ l)
    (hnode : mem a = some node) (hnext : node.next = some b) : b ∈ l := by
  induction l generalizing prev head with
  | nil => simp at ha
  | cons c l ih =>
      obtain ⟨_, node', hc, _, hrest⟩ := hchain
      rcases List.mem_cons.mp ha with rfl | hl
      · obtain rfl := Option.some.inj (hnode.symm.trans hc)
        rw [hnext] at hrest
        cases l with
        | nil => exact nomatch (show some b = none from hrest)
        | cons d l =>
            obtain ⟨hd, _⟩ := hrest
            rw [Option.some.inj hd]
            simp
      · exact List.mem_cons_of_mem c (ih hrest hl)

theorem Chain.head_mem (hchain : Chain mem prev (some a) l) : a ∈ l := by
  cases l with
  | nil => exact nomatch (show some a = none from hchain)
  | cons b l =>
      rw [Option.some.inj hchain.1]
      exact List.mem_cons_self

/-- The pointers of a node lead to its neighbours. -/
theorem Chain.neighbours {l₁ l₂ : List α} (hchain : Chain mem prev head (l₁ ++ a :: l₂)) :
    ∃ node, mem a = some node ∧ node.prev = l₁.getLast?.or prev ∧ node.next = l₂.head? := by
  induction l₁ generalizing prev head with
  | nil =>
      obtain ⟨-, node, ha, hprev, hrest⟩ := hchain
      refine ⟨node, ha, hprev, ?_⟩
      cases l₂ with
      | nil => exact hrest
      | cons b l₂ => exact hrest.1
  | cons b l₁ ih =>
      obtain ⟨-, nodeb, -, -, hrest⟩ := hchain
      obtain ⟨node, ha, hprev, hnext⟩ := ih hrest
      refine ⟨node, ha, ?_, hnext⟩
      rw [hprev, List.getLast?_cons]
      cases l₁.getLast? <;> rfl

/-- From `head` the pointers lead through `l` and back, and `tail` points to its end. -/
def Linked (mem : Memory α γ) (head tail : Option α) (l : List α) : Prop :=
  Chain mem none head l ∧ tail = l.getLast?

theorem Linked.congr (hlist : Linked mem head tail l)
    (hmem : ∀ c ∈ l, mem' c = mem c) : Linked mem' head tail l :=
  ⟨hlist.1.congr hmem, hlist.2⟩

/-! ### Walking along a chain -/

/-- `ptr = ptr->next`, `i` times; `none` if a pointer into free memory is followed. -/
def walk (mem : Memory α γ) : ℕ → Option α → Option (Option α)
  | 0, ptr => some ptr
  | _ + 1, none => none
  | i + 1, some a => (mem a).bind fun node => walk mem i node.next

theorem Chain.walk (hchain : Chain mem prev head l) {i : ℕ} (hi : i ≤ l.length) :
    LinkedList.walk mem i head = some l[i]? := by
  induction i generalizing prev head l with
  | zero =>
      rw [LinkedList.walk]
      cases l with
      | nil => exact congrArg some hchain
      | cons a l => exact congrArg some hchain.1
  | succ i ih =>
      cases l with
      | nil => exact absurd hi (Nat.not_succ_le_zero i)
      | cons a l =>
          obtain ⟨rfl, node, ha, -, hrest⟩ := hchain
          rw [LinkedList.walk, ha, Option.bind_some, List.getElem?_cons_succ]
          exact ih hrest (Nat.le_of_succ_le_succ hi)

/-- The data of the nodes from `ptr` on, in order; `none` if a pointer into free memory is
followed or there are more than `fuel` nodes. -/
def collect (mem : Memory α γ) : ℕ → Option α → Option (List γ)
  | _, none => some []
  | 0, some _ => none
  | fuel + 1, some a =>
      (mem a).bind fun node => (collect mem fuel node.next).map (node.data :: ·)

theorem Chain.collect (hchain : Chain mem prev head l) {fuel : ℕ} (hfuel : l.length ≤ fuel) :
    ∃ data, LinkedList.collect mem fuel head = some data ∧
      data.map some = l.map fun a => (mem a).map Node.data := by
  induction l generalizing prev head fuel with
  | nil =>
      obtain rfl : head = none := hchain
      exact ⟨[], by cases fuel <;> rfl, rfl⟩
  | cons a l ih =>
      obtain ⟨rfl, node, ha, -, hrest⟩ := hchain
      cases fuel with
      | zero => exact absurd hfuel (Nat.not_succ_le_zero _)
      | succ fuel =>
          obtain ⟨data, hcollect, hdata⟩ := ih hrest (Nat.le_of_succ_le_succ hfuel)
          refine ⟨node.data :: data, ?_, ?_⟩
          · rw [LinkedList.collect, ha, Option.bind_some, hcollect, Option.map_some]
          · rw [List.map_cons, List.map_cons, hdata, ha, Option.map_some]

/-! ## Writing to one node -/

variable [DecidableEq α]

/-- The node at `a` is changed. -/
def Memory.write (mem : Memory α γ) (a : α) (f : Node α γ → Node α γ) :
    Option (Memory α γ) :=
  (mem a).map fun node => Function.update mem a (some (f node))

def Memory.free (mem : Memory α γ) (a : α) : Memory α γ :=
  Function.update mem a none

def Node.setPrev (prev : Option α) (node : Node α γ) : Node α γ := { node with prev := prev }

def Node.setNext (next : Option α) (node : Node α γ) : Node α γ := { node with next := next }

theorem Memory.write_eq_some (ha : mem a = some node) :
    ∃ mem', mem.write a f = some mem' ∧ mem' a = some (f node) ∧ ∀ c, c ≠ a → mem' c = mem c :=
  ⟨Function.update mem a (some (f node)), by rw [Memory.write, ha, Option.map_some],
    Function.update_self .., fun _ hc => Function.update_of_ne hc ..⟩

theorem Memory.write_sameData (hwrite : mem.write a f = some mem')
    (hf : ∀ node, (f node).data = node.data) : SameData mem mem' := by
  obtain ⟨node, ha, rfl⟩ := Option.map_eq_some_iff.mp hwrite
  intro c
  by_cases hca : c = a
  · subst hca
    simp [ha, hf]
  · rw [Function.update_of_ne hca]

/-! ## The first pointer back -/

/-- If there is a node at `head`, its `prev` pointer is set. -/
def relink (mem : Memory α γ) (head prev : Option α) : Option (Memory α γ) :=
  match head with
  | none => some mem
  | some a => mem.write a (Node.setPrev prev)

theorem Chain.relink (hchain : Chain mem prev head l) (hl : l.Nodup) (prev' : Option α) :
    ∃ mem', LinkedList.relink mem head prev' = some mem' ∧ Chain mem' prev' head l ∧
      SameData mem mem' ∧ ∀ c ∉ l, mem' c = mem c := by
  cases l with
  | nil =>
      have hhead : head = none := hchain
      subst hhead
      exact ⟨mem, rfl, rfl, .refl mem, fun _ _ => rfl⟩
  | cons a l =>
      obtain ⟨rfl, node, ha, _, hrest⟩ := hchain
      obtain ⟨mem', hwrite, ha', hother⟩ := Memory.write_eq_some (f := Node.setPrev prev') ha
      refine ⟨mem', hwrite, ⟨rfl, _, ha', rfl, ?_⟩,
        Memory.write_sameData hwrite fun _ => rfl, fun c hc => hother c ?_⟩
      · exact hrest.congr fun c hc => hother c fun hca => (List.nodup_cons.mp hl).1 (hca ▸ hc)
      · exact List.ne_of_not_mem_cons hc

/-! ## Inserting in front -/

/-- The node at `a` becomes the first one. -/
def insertFront (mem : Memory α γ) (head : Option α) (a : α) : Option (Memory α γ) :=
  (mem.write a fun node => (node.setPrev none).setNext head).bind fun mem =>
    relink mem head (some a)

theorem Chain.insertFront (hchain : Chain mem none head l) (hl : l.Nodup)
    (hnew : a ∉ l) (ha : mem a = some node) :
    ∃ mem', LinkedList.insertFront mem head a = some mem' ∧ Chain mem' none (some a) (a :: l) ∧
      SameData mem mem' ∧ ∀ c ∉ a :: l, mem' c = mem c := by
  obtain ⟨mem₁, hwrite, ha₁, hother₁⟩ :=
    Memory.write_eq_some (f := fun node => (node.setPrev none).setNext head) ha
  have hchain₁ : Chain mem₁ none head l :=
    hchain.congr fun c hc => hother₁ c fun hca => hnew (hca ▸ hc)
  obtain ⟨mem', hrelink, hchain', hdata, hother⟩ := hchain₁.relink hl (some a)
  have ha' : mem' a = some ((node.setPrev none).setNext head) := (hother a hnew).trans ha₁
  refine ⟨mem', ?_, ⟨rfl, _, ha', rfl, hchain'⟩,
    (Memory.write_sameData hwrite fun _ => rfl).trans hdata, fun c hc => ?_⟩
  · rw [LinkedList.insertFront, hwrite]
    exact hrelink
  · rw [List.mem_cons, not_or] at hc
    rw [hother c hc.2, hother₁ c hc.1]

/-! ## Removing -/

/-- The neighbours of the node at `a` are linked with each other; the result has
the new head. -/
def remove (mem : Memory α γ) (head : Option α) (a : α) : Option (Memory α γ × Option α) :=
  (mem a).bind fun node =>
    match node.prev with
    | none => (relink mem node.next none).map fun mem => (mem, node.next)
    | some p =>
        (mem.write p (Node.setNext node.next)).bind fun mem =>
          (relink mem node.next (some p)).map fun mem => (mem, head)

/-- Removing a node that is not the first one. -/
theorem Chain.remove_tail (hchain : Chain mem prev (some c) (c :: l)) (hl : (c :: l).Nodup)
    (hmem : a ∈ l) (head : Option α) : ∃ mem', remove mem head a = some (mem', head) ∧
      Chain mem' prev (some c) (c :: l.erase a) ∧ SameData mem mem' ∧
        ∀ d ∉ c :: l, mem' d = mem d := by
  induction l generalizing c prev with
  | nil => simp at hmem
  | cons b l ih =>
      obtain ⟨_, nodec, hc, hprev, hnext, nodeb, hb, hprevb, hrest⟩ := hchain
      obtain ⟨hcl, hbl, hlnodup⟩ : c ∉ b :: l ∧ b ∉ l ∧ l.Nodup := by
        rw [List.nodup_cons, List.nodup_cons] at hl
        exact hl
      by_cases hab : a = b
      · -- The node before it is `c`.
        subst hab
        obtain ⟨mem₁, hwrite, hc₁, hother₁⟩ :=
          Memory.write_eq_some (f := Node.setNext nodeb.next) hc
        have hchain₁ : Chain mem₁ (some a) nodeb.next l := hrest.congr fun d hd =>
          hother₁ d fun hdc => hcl (hdc ▸ List.mem_cons_of_mem a hd)
        obtain ⟨mem', hrelink, hchain', hdata, hother⟩ := hchain₁.relink hlnodup (some c)
        have hcl' : c ∉ l := fun h => hcl (List.mem_cons_of_mem a h)
        have hc' : mem' c = some (nodec.setNext nodeb.next) := (hother c hcl').trans hc₁
        refine ⟨mem', ?_, ⟨rfl, _, hc', hprev, ?_⟩,
          (Memory.write_sameData hwrite fun _ => rfl).trans hdata, fun d hd => ?_⟩
        · simp only [remove, hb, Option.bind_some, hprevb, hwrite, hrelink, Option.map_some]
        · rw [List.erase_cons_head]
          exact hchain'
        · rw [List.mem_cons, List.mem_cons, not_or, not_or] at hd
          rw [hother d hd.2.2, hother₁ d hd.1]
      · have hal : a ∈ l := (List.mem_cons.mp hmem).resolve_left hab
        have hchainb : Chain mem (some c) (some b) (b :: l) := ⟨rfl, nodeb, hb, hprevb, hrest⟩
        obtain ⟨mem', hremove, hchain', hdata, hother⟩ :=
          ih hchainb (List.nodup_cons.mpr ⟨hbl, hlnodup⟩) hal
        refine ⟨mem', hremove, ⟨rfl, nodec, (hother c hcl).trans hc, hprev, ?_⟩, hdata,
          fun d hd => hother d fun hdl => hd (List.mem_cons_of_mem c hdl)⟩
        rw [List.erase_cons_tail (by simpa using fun h => hab h.symm), hnext]
        exact hchain'

theorem Chain.remove (hchain : Chain mem none head l) (hl : l.Nodup) (hmem : a ∈ l) :
    ∃ mem' head', LinkedList.remove mem head a = some (mem', head') ∧
      Chain mem' none head' (l.erase a) ∧ SameData mem mem' ∧ ∀ d ∉ l, mem' d = mem d := by
  cases l with
  | nil => simp at hmem
  | cons c l =>
      have hhead : head = some c := hchain.1
      subst hhead
      by_cases hac : a = c
      · subst hac
        obtain ⟨_, node, ha, hprev, hrest⟩ := hchain
        obtain ⟨mem', hrelink, hchain', hdata, hother⟩ :=
          hrest.relink (List.nodup_cons.mp hl).2 none
        refine ⟨mem', node.next, ?_, ?_, hdata,
          fun d hd => hother d fun hdl => hd (List.mem_cons_of_mem a hdl)⟩
        · simp only [LinkedList.remove, ha, Option.bind_some, hprev, hrelink, Option.map_some]
        · rw [List.erase_cons_head]
          exact hchain'
      · have hal : a ∈ l := (List.mem_cons.mp hmem).resolve_left hac
        obtain ⟨mem', hremove, hchain', hdata, hother⟩ := hchain.remove_tail hl hal (some c)
        refine ⟨mem', some c, hremove, ?_, hdata, hother⟩
        rw [List.erase_cons_tail (by simpa using fun h => hac h.symm)]
        exact hchain'

/-! ## Inserting at the back -/

/-- The node at `a` becomes the last one; the result has the new ends. -/
def insertBack (mem : Memory α γ) (head tail : Option α) (a : α) :
    Option (Memory α γ × Option α × Option α) :=
  (mem.write a fun node => (node.setNext none).setPrev none).bind fun mem =>
    match head with
    | none => some (mem, some a, some a)
    | some _ =>
        (mem.write a (Node.setPrev tail)).bind fun mem =>
          match tail with
          | none => none
          | some e => (mem.write e (Node.setNext (some a))).map fun mem => (mem, head, some a)

/-- Behind a chain a node is added that points back to its last node. -/
theorem Chain.concat (hchain : Chain mem prev head l) (hl : l.Nodup) (hnew : a ∉ l)
    (ha : mem a = some node) (hnext : node.next = none) (hprev : node.prev = l.getLast?.or prev) :
    ∀ e ∈ l.getLast?, ∃ mem', mem.write e (Node.setNext (some a)) = some mem' ∧
      Chain mem' prev head (l ++ [a]) ∧ SameData mem mem' ∧ ∀ c ∉ l, mem' c = mem c := by
  intro e he
  induction l generalizing prev head with
  | nil => simp at he
  | cons b l ih =>
      obtain ⟨hhead, nodeb, hb, hprevb, hrest⟩ := hchain
      rw [List.nodup_cons] at hl
      rw [List.mem_cons, not_or] at hnew
      cases l with
      | nil =>
          obtain rfl : b = e := Option.some.inj he
          obtain ⟨mem', hwrite, hb', hother⟩ := Memory.write_eq_some (f := Node.setNext (some a)) hb
          refine ⟨mem', hwrite, ⟨hhead, _, hb', hprevb, rfl, node, ?_, hprev, hnext⟩,
            Memory.write_sameData hwrite fun _ => rfl, fun c hc => hother c ?_⟩
          · rw [hother a hnew.1, ha]
          · exact List.ne_of_not_mem_cons hc
      | cons d l =>
          have hprev' : node.prev = (d :: l).getLast?.or (some b) := by
            rw [hprev, List.getLast?_cons_cons, List.getLast?_cons, Option.some_or, Option.some_or]
          obtain ⟨mem', hwrite, hchain', hdata, hother⟩ :=
            ih hrest hl.2 hnew.2 hprev' (by rwa [List.getLast?_cons_cons] at he)
          refine ⟨mem', hwrite, ⟨hhead, nodeb, (hother b hl.1).trans hb, hprevb, hchain'⟩,
            hdata, fun c hc => hother c fun hcl => hc (List.mem_cons_of_mem b hcl)⟩

theorem Linked.insertBack (hlist : Linked mem head tail l)
    (hl : l.Nodup) (hnew : a ∉ l) (ha : mem a = some node) :
    ∃ mem' head', LinkedList.insertBack mem head tail a = some (mem', head', some a) ∧
      Linked mem' head' (some a) (l ++ [a]) ∧ SameData mem mem' ∧
        ∀ c ∉ l ++ [a], mem' c = mem c := by
  obtain ⟨hchain, rfl⟩ := hlist
  obtain ⟨mem₁, hwrite₁, ha₁, hother₁⟩ :=
    Memory.write_eq_some (f := fun node => (node.setNext none).setPrev none) ha
  have hchain₁ : Chain mem₁ none head l :=
    hchain.congr fun c hc => hother₁ c fun hca => hnew (hca ▸ hc)
  have hdata₁ : SameData mem mem₁ := Memory.write_sameData hwrite₁ fun _ => rfl
  cases l with
  | nil =>
      obtain rfl : head = none := hchain
      refine ⟨mem₁, some a, ?_, ⟨⟨rfl, _, ha₁, rfl, rfl⟩, rfl⟩, hdata₁, fun c hc => ?_⟩
      · rw [LinkedList.insertBack, hwrite₁]
        rfl
      · exact hother₁ c (List.ne_of_not_mem_cons hc)
  | cons b l =>
      obtain rfl : head = some b := hchain.1
      obtain ⟨mem₂, hwrite₂, ha₂, hother₂⟩ :=
        Memory.write_eq_some (f := Node.setPrev (b :: l).getLast?) ha₁
      have hchain₂ : Chain mem₂ none (some b) (b :: l) :=
        hchain₁.congr fun c hc => hother₂ c fun hca => hnew (hca ▸ hc)
      obtain ⟨e, he⟩ : ∃ e, (b :: l).getLast? = some e := ⟨_, List.getLast?_cons⟩
      obtain ⟨mem', hwrite', hchain', hdata', hother'⟩ :=
        hchain₂.concat hl hnew ha₂ rfl (by rw [Option.or_none]; rfl) e he
      refine ⟨mem', some b, ?_, ⟨hchain', ?_⟩, ?_, fun c hc => ?_⟩
      · rw [he] at hwrite₂
        simp only [LinkedList.insertBack, hwrite₁, Option.bind_some, hwrite₂, he, hwrite',
          Option.map_some]
      · rw [List.getLast?_append]
        rfl
      · exact (hdata₁.trans (Memory.write_sameData hwrite₂ fun _ => rfl)).trans hdata'
      · rw [List.mem_append, not_or, List.mem_singleton] at hc
        rw [hother' c hc.1, hother₂ c hc.2, hother₁ c hc.2]

/-! ## Removing, with a pointer to the last node -/

/-- If there is a node at `prev`, its `next` pointer is set. -/
def relinkNext (mem : Memory α γ) (prev next : Option α) : Option (Memory α γ) :=
  match prev with
  | none => some mem
  | some p => mem.write p (Node.setNext next)

/-- The neighbours of the node at `a` are linked with each other, and the ends that point to
it are moved. -/
def unlink (mem : Memory α γ) (head tail : Option α) (a : α) :
    Option (Memory α γ × Option α × Option α) :=
  (mem a).bind fun node =>
    (relinkNext mem node.prev node.next).bind fun mem =>
      (relink mem node.next node.prev).map fun mem =>
        (mem, if head = some a then node.next else head,
          if tail = some a then node.prev else tail)

theorem Linked.unlink (hlist : Linked mem head tail l) (hl : l.Nodup) (hmem : a ∈ l) :
    ∃ mem' head' tail', LinkedList.unlink mem head tail a = some (mem', head', tail') ∧
      Linked mem' head' tail' (l.erase a) ∧ SameData mem mem' ∧ ∀ c ∉ l, mem' c = mem c := by
  obtain ⟨hchain, rfl⟩ := hlist
  obtain ⟨mem', head', hremove, hchain', hdata, hother⟩ := hchain.remove hl hmem
  obtain ⟨l₁, l₂, rfl⟩ := List.append_of_mem hmem
  obtain ⟨node, ha, hprev, hnext⟩ := hchain.neighbours
  have hnodup := List.nodup_append.mp hl
  have ha₁ : a ∉ l₁ := fun h => hnodup.2.2 a h a List.mem_cons_self rfl
  have ha₂ : a ∉ l₂ := (List.nodup_cons.mp hnodup.2.1).1
  have herase : (l₁ ++ a :: l₂).erase a = l₁ ++ l₂ := by
    rw [List.erase_append_right _ ha₁, List.erase_cons_head]
  rw [Option.or_none] at hprev
  rw [herase] at hchain' ⊢
  have hends : LinkedList.unlink mem head (l₁ ++ a :: l₂).getLast? a =
      some (mem', head', if (l₁ ++ a :: l₂).getLast? = some a then node.prev
        else (l₁ ++ a :: l₂).getLast?) := by
    simp only [LinkedList.remove, ha, Option.bind_some] at hremove
    simp only [LinkedList.unlink, ha, Option.bind_some]
    cases l₁ with
    | nil =>
        rw [List.getLast?_nil] at hprev
        simp only [hprev, Option.map_eq_some_iff] at hremove
        obtain ⟨mem₁, hrelink, heq⟩ := hremove
        obtain ⟨rfl, rfl⟩ := Prod.mk.inj heq
        rw [hprev, relinkNext, Option.bind_some, hrelink, Option.map_some, if_pos hchain.1]
    | cons b l₁ =>
        obtain ⟨p, hp⟩ : ∃ p, node.prev = some p := by
          rw [hprev, List.getLast?_cons]
          exact ⟨_, rfl⟩
        have hb : head ≠ some a := by
          rw [hchain.1]
          exact fun h => ha₁ (Option.some.inj h ▸ List.mem_cons_self)
        simp only [hp, Option.bind_eq_some_iff, Option.map_eq_some_iff] at hremove
        obtain ⟨mem₁, hwrite, mem₂, hrelink, heq⟩ := hremove
        obtain ⟨rfl, rfl⟩ := Prod.mk.inj heq
        rw [hp, relinkNext, hwrite, Option.bind_some, hrelink, Option.map_some, if_neg hb]
  refine ⟨mem', head', _, hends, ⟨hchain', ?_⟩, hdata, hother⟩
  cases l₂ with
  | nil => rw [List.getLast?_append, List.getLast?_singleton, Option.some_or, if_pos rfl, hprev,
      List.append_nil]
  | cons b l₂ =>
      have hlast : (l₁ ++ a :: b :: l₂).getLast? = (b :: l₂).getLast? := by
        rw [List.getLast?_append, List.getLast?_cons_cons, List.getLast?_cons, Option.some_or]
      rw [hlast, if_neg, List.getLast?_append, List.getLast?_cons, Option.some_or]
      exact fun h => ha₂ (List.mem_of_getLast? h)

end MiscProjects.LinkedList

import Mathlib.Algebra.Ring.Nat
import Mathlib.Data.List.Basic
import Mathlib.Data.List.Nodup
import Mathlib.Logic.Function.Basic

/-!
# Singly linked lists through one `next` field

`Chain next head l` says that the pointers lead from `head` through the nodes `l`
to the end.  A node has one `next` field, so that it can be in one list at a
time: `Lists next head loc content` describes a family of lists through the same
field, `loc a` being the list the node `a` is in.
-/

namespace MiscProjects.SinglyLinked

open Function (update update_self update_of_ne)

variable {α ι : Type*} {next next' : α → Option α} {start : Option α} {a b p : α}
  {l l₁ l₂ : List α}

/-! ## One list -/

/-- From `start` the `next` pointers lead through `l` to the end. -/
def Chain (next : α → Option α) : Option α → List α → Prop
  | start, [] => start = none
  | start, a :: l => start = some a ∧ Chain next (next a) l

/-- A chain depends on its own nodes only. -/
theorem Chain.congr (hchain : Chain next start l) (hnext : ∀ a ∈ l, next' a = next a) :
    Chain next' start l := by
  induction l generalizing start with
  | nil => exact hchain
  | cons a l ih =>
      obtain ⟨hstart, hrest⟩ := hchain
      refine ⟨hstart, ?_⟩
      rw [hnext a List.mem_cons_self]
      exact ih hrest fun b hb => hnext b (List.mem_cons_of_mem a hb)

theorem Chain.head?_eq (hchain : Chain next start l) : l.head? = start := by
  cases l with
  | nil => exact Eq.symm hchain
  | cons a l => exact hchain.1.symm

/-- The pointers determine the list. -/
theorem Chain.unique (h₁ : Chain next start l₁) (h₂ : Chain next start l₂) : l₁ = l₂ := by
  induction l₁ generalizing start l₂ with
  | nil =>
      obtain rfl : start = none := h₁
      exact (List.head?_eq_none_iff.mp h₂.head?_eq).symm
  | cons a l₁ ih =>
      obtain ⟨rfl, hrest₁⟩ := h₁
      cases l₂ with
      | nil => exact nomatch (show some a = none from h₂)
      | cons b l₂ =>
          obtain ⟨hab, hrest₂⟩ := h₂
          obtain rfl := Option.some.inj hab
          rw [ih hrest₁ hrest₂]

/-- From a node of a list on, the list is the list of that node. -/
theorem Chain.suffix (hchain : Chain next start (l₁ ++ l₂)) : ∃ mid, Chain next mid l₂ := by
  induction l₁ generalizing start with
  | nil => exact ⟨start, hchain⟩
  | cons a l₁ ih => exact ih hchain.2

/-- A list that comes to an end passes each node once. -/
theorem Chain.nodup (hchain : Chain next start l) : l.Nodup := by
  induction l generalizing start with
  | nil => exact List.nodup_nil
  | cons a l ih =>
      obtain ⟨rfl, hrest⟩ := hchain
      refine List.nodup_cons.mpr ⟨fun ha => ?_, ih hrest⟩
      obtain ⟨l₁, l₂, rfl⟩ := List.append_of_mem ha
      obtain ⟨mid, hmid, hafter⟩ := hrest.suffix
      have hsame : l₁ ++ a :: l₂ = l₂ := hrest.unique hafter
      have hlength := congrArg List.length hsame
      simp only [List.length_append, List.length_cons] at hlength
      omega

theorem Chain.push [DecidableEq α] (hchain : Chain next start l) (ha : a ∉ l) :
    Chain (update next a start) (some a) (a :: l) := by
  refine ⟨rfl, ?_⟩
  rw [update_self]
  refine hchain.congr fun b hb => update_of_ne ?_ _ _
  rintro rfl
  exact ha hb

/-- A node is put behind another one by writing the pointers of both. -/
theorem Chain.insert [DecidableEq α] (hchain : Chain next start (l₁ ++ p :: l₂))
    (ha : a ∉ l₁ ++ p :: l₂) :
    Chain (update (update next a (next p)) p (some a)) start (l₁ ++ p :: a :: l₂) := by
  have hpa : a ≠ p := by
    rintro rfl
    exact ha (by simp)
  have hnodup := hchain.nodup
  induction l₁ generalizing start with
  | nil =>
      obtain ⟨hstart, hrest⟩ := hchain
      refine ⟨hstart, ?_⟩
      rw [update_self]
      refine ⟨rfl, ?_⟩
      rw [update_of_ne hpa, update_self]
      refine hrest.congr fun b hb => ?_
      have hbp : b ≠ p := by
        rintro rfl
        exact (List.nodup_cons.mp hnodup).1 hb
      have hba : b ≠ a := by
        rintro rfl
        exact ha (List.mem_cons_of_mem p hb)
      rw [update_of_ne hbp, update_of_ne hba]
  | cons b l₁ ih =>
      obtain ⟨hstart, hrest⟩ := hchain
      have hb : b ∉ l₁ ++ p :: l₂ := (List.nodup_cons.mp hnodup).1
      have hbp : b ≠ p := by
        rintro rfl
        exact hb (by simp)
      have hba : b ≠ a := by
        rintro rfl
        exact ha List.mem_cons_self
      refine ⟨hstart, ?_⟩
      rw [update_of_ne hbp, update_of_ne hba]
      exact ih hrest (fun hmem => ha (List.mem_cons_of_mem b hmem)) (List.nodup_cons.mp hnodup).2

/-- The last node of a list points to nothing. -/
theorem Chain.next_last (hchain : Chain next start (l ++ [p])) : next p = none := by
  induction l generalizing start with
  | nil => exact hchain.2
  | cons b l ih => exact ih hchain.2

/-- The node behind the last one is put there by writing one pointer. -/
theorem Chain.append [DecidableEq α] (hchain : Chain next start (l ++ [p])) (ha : a ∉ l ++ [p]) :
    Chain (update (update next a none) p (some a)) start (l ++ [p] ++ [a]) := by
  have hinsert := hchain.insert ha
  rw [hchain.next_last] at hinsert
  simpa using hinsert

/-- A node is taken out by writing the pointer of the node before it. -/
theorem Chain.unlink [DecidableEq α] (hchain : Chain next start (l₁ ++ p :: a :: l₂)) :
    Chain (update next p (next a)) start (l₁ ++ p :: l₂) := by
  have hnodup := hchain.nodup
  induction l₁ generalizing start with
  | nil =>
      obtain ⟨hstart, hnext, hrest⟩ := hchain
      refine ⟨hstart, ?_⟩
      rw [update_self]
      refine hrest.congr fun b hb => update_of_ne ?_ _ _
      rintro rfl
      exact (List.nodup_cons.mp hnodup).1 (List.mem_cons_of_mem a hb)
  | cons b l₁ ih =>
      obtain ⟨hstart, hrest⟩ := hchain
      have hbp : b ≠ p := by
        rintro rfl
        exact (List.nodup_cons.mp hnodup).1 (by simp)
      refine ⟨hstart, ?_⟩
      rw [update_of_ne hbp]
      exact ih hrest (List.nodup_cons.mp hnodup).2

/-- Consecutive nodes that are linked in their order. -/
theorem chain_range' {next : ℕ → Option ℕ} {first n : ℕ} (hn : 0 < n)
    (hnext : ∀ p, first ≤ p → p < first + n →
      next p = if p + 1 < first + n then some (p + 1) else none) :
    Chain next (some first) (List.range' first n) := by
  induction n generalizing first with
  | zero => exact absurd hn (Nat.lt_irrefl 0)
  | succ n ih =>
      refine ⟨rfl, ?_⟩
      rw [hnext first (Nat.le_refl first) (by omega)]
      rcases Nat.eq_zero_or_pos n with rfl | hpos
      · rw [if_neg (Nat.lt_irrefl (first + 1))]
        rfl
      · rw [if_pos (by omega)]
        refine ih hpos fun p hp hlt => ?_
        rw [hnext p (by omega) (by omega), Nat.add_right_comm first 1 n]
        rfl

/-! ## Searching a list -/

section Search
variable [DecidableEq α] {fuel : ℕ} {prev : Option α}

/-- Follow the pointers from `ptr` until `a` or the end is found, and give the
node before it; `none` when the fuel does not suffice. -/
def search (next : α → Option α) (a : α) : ℕ → Option α → Option α → Option (Option α)
  | 0, _, _ => none
  | _ + 1, prev, none => some prev
  | fuel + 1, prev, some b =>
      if b = a then some prev else search next a fuel (some b) (next b)

/-- A node of a list is found, and the node before it with it. -/
theorem Chain.search_eq (hchain : Chain next start (l₁ ++ a :: l₂)) (hfuel : l₁.length < fuel) :
    search next a fuel prev start = some (l₁.getLast?.or prev) := by
  have hnodup := hchain.nodup
  induction l₁ generalizing start fuel prev with
  | nil =>
      obtain ⟨rfl, -⟩ := hchain
      obtain ⟨fuel, rfl⟩ := Nat.exists_eq_succ_of_ne_zero (Nat.ne_of_gt hfuel)
      simp [search]
  | cons b l₁ ih =>
      obtain ⟨rfl, hrest⟩ := hchain
      obtain ⟨fuel, rfl⟩ := Nat.exists_eq_succ_of_ne_zero (Nat.ne_of_gt (Nat.zero_lt_of_lt hfuel))
      have hba : b ≠ a := by
        rintro rfl
        exact (List.nodup_cons.mp hnodup).1 (by simp)
      have hfuel' : l₁.length < fuel := by
        simpa using hfuel
      rw [search, if_neg hba, ih hrest hfuel' (List.nodup_cons.mp hnodup).2]
      cases l₁ with
      | nil => rfl
      | cons c l₁ => simp [List.getLast?_cons]

end Search

/-! ## Several lists through one field -/

/-- The lists `content i`, from `head i` on; the node `a` is in the list `loc a`. -/
structure Lists (next : α → Option α) (head : ι → Option α) (loc : α → Option ι)
    (content : ι → List α) : Prop where
  chain : ∀ i, Chain next (head i) (content i)
  mem : ∀ i a, a ∈ content i ↔ loc a = some i

section Lists
variable {head head' : ι → Option α} {loc loc' : α → Option ι} {content : ι → List α} {i : ι}
  {v : Option α}

theorem Lists.nodup (h : Lists next head loc content) (i : ι) : (content i).Nodup :=
  (h.chain i).nodup

theorem Lists.not_mem (h : Lists next head loc content) (ha : loc a = none) (i : ι) :
    a ∉ content i := by
  rw [h.mem, ha]
  exact nofun

variable [DecidableEq α]

/-- The pointer of a node that is in no list may be written. -/
theorem Lists.setNext (h : Lists next head loc content) (ha : loc a = none) :
    Lists (update next a v) head loc content where
  chain := by
    intro i
    refine (h.chain i).congr fun b hb => update_of_ne ?_ _ _
    rintro rfl
    exact h.not_mem ha i hb
  mem := h.mem

/-- The locations after a node has come into a list. -/
theorem Lists.mem_insert_iff (h : Lists next head loc content)
    (hl : ∀ b, b ∈ l ↔ b = a ∨ b ∈ content i) (b : α) :
    b ∈ l ↔ update loc a (some i) b = some i := by
  rw [hl]
  rcases eq_or_ne b a with rfl | hb
  · simp
  · simp [hb, h.mem]

/-- The locations after a node has left its list. -/
theorem Lists.mem_erase_iff (h : Lists next head loc content) (hcontent : content i = l₁ ++ a :: l₂)
    (b : α) : b ∈ l₁ ++ l₂ ↔ update loc a none b = some i := by
  have hnodup := h.nodup i
  rw [hcontent, List.nodup_middle] at hnodup
  rcases eq_or_ne b a with rfl | hb
  · simpa using (List.nodup_cons.mp hnodup).1
  · rw [update_of_ne hb, ← h.mem, hcontent]
    simp [hb]

theorem update_loc_iff {o o' : Option ι} (ha : loc a = o) {j : ι} (ho : o ≠ some j)
    (ho' : o' ≠ some j) (b : α) : update loc a o' b = some j ↔ loc b = some j := by
  rcases eq_or_ne b a with rfl | hb
  · simp [ha, ho, ho']
  · simp [hb]

variable [DecidableEq ι]

omit [DecidableEq α] in
/-- One list is changed, to a list of the nodes whose location it is now, and the
other lists are as they were. -/
theorem Lists.set (h : Lists next head loc content) (hchain : Chain next' (head' i) l)
    (hhead : ∀ j, j ≠ i → head' j = head j) (hnext : ∀ j, j ≠ i → ∀ b ∈ content j, next' b = next b)
    (hmem : ∀ b, b ∈ l ↔ loc' b = some i)
    (hloc : ∀ b j, j ≠ i → (loc' b = some j ↔ loc b = some j)) :
    Lists next' head' loc' (update content i l) where
  chain := by
    intro j
    rcases eq_or_ne j i with rfl | hj
    · rw [update_self]
      exact hchain
    · rw [update_of_ne hj, hhead j hj]
      exact (h.chain j).congr (hnext j hj)
  mem := by
    intro j b
    rcases eq_or_ne j i with rfl | hj
    · rw [update_self]
      exact hmem b
    · rw [update_of_ne hj, h.mem, hloc b j hj]

theorem Lists.push (h : Lists next head loc content) (ha : loc a = none) (i : ι) :
    Lists (update next a (head i)) (update head i (some a)) (update loc a (some i))
      (update content i (a :: content i)) := by
  refine h.set ?_ (fun j hj => update_of_ne hj _ _) ?_ (h.mem_insert_iff (by simp)) ?_
  · rw [update_self]
    exact (h.chain i).push (h.not_mem ha i)
  · intro j _ b hb
    refine update_of_ne ?_ _ _
    rintro rfl
    exact h.not_mem ha j hb
  · exact fun b j hj => update_loc_iff ha (by simp) (by simpa using hj.symm) b

/-- The first node of a list is taken out. -/
theorem Lists.pop (h : Lists next head loc content) (hhead : head i = some a) :
    ∃ rest, content i = a :: rest ∧ loc a = some i ∧
      Lists next (update head i (next a)) (update loc a none) (update content i rest) := by
  have hchain := h.chain i
  cases hcontent : content i with
  | nil =>
      rw [hcontent, hhead] at hchain
      exact nomatch (show some a = none from hchain)
  | cons b rest =>
      rw [hcontent, hhead] at hchain
      obtain ⟨hab, hrest⟩ := hchain
      obtain rfl := Option.some.inj hab
      have hloc : loc a = some i := by
        rw [← h.mem, hcontent]
        exact List.mem_cons_self
      refine ⟨rest, rfl, hloc, h.set ?_ (fun j hj => update_of_ne hj _ _) (fun _ _ _ _ => rfl)
        (h.mem_erase_iff (show content i = [] ++ a :: rest from hcontent)) ?_⟩
      · rw [update_self]
        exact hrest
      · exact fun b j hj => update_loc_iff hloc (by simpa using hj.symm) (by simp) b

/-- A node becomes the first one of an empty list. -/
theorem Lists.append_nil (h : Lists next head loc content) (ha : loc a = none)
    (hnil : content i = []) :
    Lists (update next a none) (update head i (some a)) (update loc a (some i))
      (update content i [a]) := by
  have hstart : head i = none := by
    have hchain := h.chain i
    rw [hnil] at hchain
    exact hchain
  have hpush := h.push ha i
  rw [hstart, hnil] at hpush
  exact hpush

/-- A node is put behind the last one. -/
theorem Lists.append_concat (h : Lists next head loc content) (ha : loc a = none)
    (hconcat : content i = l ++ [p]) :
    Lists (update (update next a none) p (some a)) head (update loc a (some i))
      (update content i (content i ++ [a])) := by
  refine h.set ?_ (fun _ _ => rfl) ?_ (h.mem_insert_iff fun b => by simp [or_comm]) ?_
  · have hchain := h.chain i
    have hnot := h.not_mem ha i
    rw [hconcat] at hchain hnot ⊢
    exact hchain.append hnot
  · intro j hj b hb
    have hbp : b ≠ p := by
      rintro rfl
      have hbi : loc b = some i := (h.mem i b).mp (by simp [hconcat])
      exact hj (Option.some.inj (((h.mem j b).mp hb).symm.trans hbi))
    have hba : b ≠ a := by
      rintro rfl
      exact h.not_mem ha j hb
    rw [update_of_ne hbp, update_of_ne hba]
  · exact fun b j hj => update_loc_iff ha (by simp) (by simpa using hj.symm) b

/-- A node behind another one is taken out. -/
theorem Lists.unlink (h : Lists next head loc content) (hcontent : content i = l₁ ++ p :: a :: l₂) :
    Lists (update next p (next a)) head (update loc a none) (update content i (l₁ ++ p :: l₂)) := by
  have hcontent' : content i = l₁ ++ [p] ++ a :: l₂ := by
    rw [hcontent, List.append_assoc]
    rfl
  have hloc : loc a = some i := by
    rw [← h.mem, hcontent]
    simp
  have hp : p ∈ content i := by simp [hcontent]
  refine h.set ?_ (fun _ _ => rfl) ?_ ?_ ?_
  · have hchain := h.chain i
    rw [hcontent] at hchain
    exact hchain.unlink
  · intro j hj b hb
    refine update_of_ne ?_ _ _
    rintro rfl
    exact hj (Option.some.inj (((h.mem j b).mp hb).symm.trans ((h.mem i b).mp hp)))
  · intro b
    rw [← h.mem_erase_iff hcontent' b, List.append_assoc]
    rfl
  · exact fun b j hj => update_loc_iff hloc (by simpa using hj.symm) (by simp) b

end Lists

end MiscProjects.SinglyLinked

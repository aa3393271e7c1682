import Mathlib.Data.List.Basic

/-!
# The log of a first-in first-out mailbox

A mailbox answers for every item that arrives: it hands it over, keeps it
waiting, or gives it up for a reason of its own.  `Log` records the arrivals in
order, each with its present fate.  The operations below are those of a mailbox
that serves the oldest waiting item first; `Ordered` is the invariant that makes
the items handed over appear in their order of arrival.
-/

namespace MiscProjects.Mailbox

variable {α ρ : Type*}

/-- What has become of an item; `dropped` carries the reason. -/
inductive Fate (ρ : Type*)
  | delivered
  | waiting
  | dropped (reason : ρ)
deriving DecidableEq

def Fate.isDelivered : Fate ρ → Bool
  | .delivered => true
  | _ => false

def Fate.isWaiting : Fate ρ → Bool
  | .waiting => true
  | _ => false

/-- The arrivals in order, each with its fate. -/
abbrev Log (α ρ : Type*) := List (α × Fate ρ)

/-- The items that have been handed over, in order of arrival. -/
def delivered (log : Log α ρ) : List α :=
  (log.filter fun entry => entry.2.isDelivered).map Prod.fst

/-- The items still waiting, in order of arrival. -/
def waiting (log : Log α ρ) : List α :=
  (log.filter fun entry => entry.2.isWaiting).map Prod.fst

/-- No item has been handed over before an older one that still waits. -/
def Ordered (log : Log α ρ) : Prop :=
  log.Pairwise fun older newer =>
    older.2 = .waiting → newer.2 ≠ .delivered

/-- Hand over the oldest waiting item. -/
def deliverFirst : Log α ρ → Log α ρ
  | [] => []
  | (a, .waiting) :: log => (a, .delivered) :: log
  | entry :: log => entry :: deliverFirst log

/-- Give up all waiting items. -/
def dropWaiting (reason : ρ) (log : Log α ρ) : Log α ρ :=
  log.map fun entry =>
    (entry.1, if entry.2.isWaiting then .dropped reason else entry.2)

/-! ## Arrivals -/

variable {entry : α × Fate ρ} {log : Log α ρ} {a : α} {fate : Fate ρ}

@[simp] theorem isDelivered_iff : fate.isDelivered = true ↔ fate = .delivered := by
  cases fate <;> simp [Fate.isDelivered]

@[simp] theorem isWaiting_iff : fate.isWaiting = true ↔ fate = .waiting := by
  cases fate <;> simp [Fate.isWaiting]

@[simp] theorem delivered_append (log log' : Log α ρ) :
    delivered (log ++ log') = delivered log ++ delivered log' := by
  simp [delivered]

@[simp] theorem waiting_append (log log' : Log α ρ) :
    waiting (log ++ log') = waiting log ++ waiting log' := by
  simp [waiting]

@[simp] theorem delivered_singleton (a : α) (fate : Fate ρ) :
    delivered [(a, fate)] = if fate.isDelivered then [a] else [] := by
  cases fate <;> rfl

@[simp] theorem waiting_singleton (a : α) (fate : Fate ρ) :
    waiting [(a, fate)] = if fate.isWaiting then [a] else [] := by
  cases fate <;> rfl

theorem mem_waiting : a ∈ waiting log ↔ (a, .waiting) ∈ log := by
  simp [waiting]

theorem mem_delivered : a ∈ delivered log ↔ (a, .delivered) ∈ log := by
  simp [delivered]

/-- An arrival that is not handed over at once keeps the order. -/
theorem Ordered.arrive (h : Ordered log) (hfate : fate ≠ .delivered) :
    Ordered (log ++ [(a, fate)]) := by
  refine List.pairwise_append.mpr ⟨h, List.pairwise_singleton _ _, ?_⟩
  intro older _ newer hnewer _
  simpa [List.mem_singleton.mp hnewer] using hfate

/-- An arrival may be handed over at once if nothing waits. -/
theorem Ordered.arrive_delivered (h : Ordered log) (hnone : waiting log = []) (a : α) :
    Ordered (log ++ [(a, .delivered)]) := by
  refine List.pairwise_append.mpr ⟨h, List.pairwise_singleton _ _, ?_⟩
  rintro ⟨b, fate⟩ hmem newer - hwaits
  simp only at hwaits
  have hb := mem_waiting.mpr (hwaits ▸ hmem)
  simp [hnone] at hb

/-! ## Handing over the oldest waiting item -/

theorem deliverFirst_nil : deliverFirst ([] : Log α ρ) = [] := rfl

theorem deliverFirst_cons (entry : α × Fate ρ) (log : Log α ρ) :
    deliverFirst (entry :: log) =
      match entry with
      | (a, .waiting) => (a, .delivered) :: log
      | entry => entry :: deliverFirst log := by
  obtain ⟨a, fate⟩ := entry
  cases fate <;> rfl

@[simp] theorem map_fst_deliverFirst (log : Log α ρ) :
    (deliverFirst log).map Prod.fst = log.map Prod.fst := by
  induction log with
  | nil => rfl
  | cons entry log ih =>
      obtain ⟨a, fate⟩ := entry
      cases fate <;> simp [deliverFirst_cons, ih]

theorem waiting_deliverFirst (log : Log α ρ) : waiting (deliverFirst log) = (waiting log).tail := by
  induction log with
  | nil => rfl
  | cons entry log ih =>
      obtain ⟨a, fate⟩ := entry
      cases fate with
      | delivered | dropped => simpa [deliverFirst_cons, waiting] using ih
      | waiting => simp [deliverFirst_cons, waiting]

/-- Behind a waiting item nothing has been handed over. -/
theorem delivered_eq_nil_of_ordered (h : Ordered ((a, .waiting) :: log)) : delivered log = [] := by
  refine List.eq_nil_iff_forall_not_mem.mpr ?_
  intro b hb
  exact (List.pairwise_cons.mp h).1 _ (mem_delivered.mp hb) rfl rfl

/-- The item handed over comes after all those handed over before. -/
theorem delivered_deliverFirst (h : Ordered log) {rest : List α}
    (hwaiting : waiting log = a :: rest) : delivered (deliverFirst log) = delivered log ++ [a] := by
  induction log with
  | nil => simp [waiting] at hwaiting
  | cons entry log ih =>
      obtain ⟨b, fate⟩ := entry
      have htail : Ordered log := (List.pairwise_cons.mp h).2
      cases fate with
      | delivered | dropped =>
          have hrest := ih htail (by simpa [waiting] using hwaiting)
          simpa [deliverFirst_cons, delivered] using hrest
      | waiting =>
          have hnone := delivered_eq_nil_of_ordered h
          have hab : b = a := (List.cons.inj hwaiting).1
          have hbefore : delivered ((b, Fate.waiting) :: log) = [] := hnone
          have hafter : delivered ((b, Fate.delivered) :: log) = b :: delivered log := rfl
          rw [hbefore, deliverFirst_cons, hafter, hnone, hab]
          rfl

/-- Handing over changes one waiting entry and no other. -/
theorem mem_deliverFirst (h : entry ∈ deliverFirst log) :
    entry ∈ log ∨ (entry.2 = .delivered ∧ (entry.1, .waiting) ∈ log) := by
  induction log with
  | nil => simp [deliverFirst_nil] at h
  | cons first log ih =>
      obtain ⟨b, fate⟩ := first
      cases fate with
      | waiting =>
          simp only [deliverFirst_cons, List.mem_cons] at h
          rcases h with rfl | h
          · simp
          · exact .inl (List.mem_cons_of_mem _ h)
      | delivered | dropped reason =>
          simp only [deliverFirst_cons, List.mem_cons] at h
          rcases h with rfl | h
          · simp
          · rcases ih h with h | ⟨hfate, h⟩
            · exact .inl (List.mem_cons_of_mem _ h)
            · exact .inr ⟨hfate, List.mem_cons_of_mem _ h⟩

theorem Ordered.deliverFirst (h : Ordered log) : Ordered (deliverFirst log) := by
  induction log with
  | nil => exact h
  | cons entry log ih =>
      obtain ⟨b, fate⟩ := entry
      obtain ⟨hhead, htail⟩ := List.pairwise_cons.mp h
      cases fate with
      | waiting => exact List.pairwise_cons.mpr ⟨by simp, htail⟩
      | delivered | dropped => exact List.pairwise_cons.mpr ⟨by simp, ih htail⟩

/-! ## Giving up the waiting items -/

@[simp] theorem map_fst_dropWaiting (reason : ρ) (log : Log α ρ) :
    (dropWaiting reason log).map Prod.fst = log.map Prod.fst := by
  simp [dropWaiting]

@[simp] theorem waiting_dropWaiting (reason : ρ) (log : Log α ρ) :
    waiting (dropWaiting reason log) = [] := by
  refine List.eq_nil_iff_forall_not_mem.mpr ?_
  intro a ha
  obtain ⟨⟨b, fate⟩, -, heq⟩ := List.mem_map.mp (mem_waiting.mp ha)
  cases fate <;> simp at heq

@[simp] theorem delivered_dropWaiting (reason : ρ) (log : Log α ρ) :
    delivered (dropWaiting reason log) = delivered log := by
  induction log with
  | nil => rfl
  | cons entry log ih =>
      obtain ⟨a, fate⟩ := entry
      simp only [delivered, dropWaiting] at ih
      cases fate <;> simp [dropWaiting, delivered, ih]

theorem mem_dropWaiting {reason : ρ} (h : entry ∈ dropWaiting reason log) : entry ∈ log ∨
      (entry.2 = .dropped reason ∧ (entry.1, .waiting) ∈ log) := by
  simp only [dropWaiting, List.mem_map] at h
  obtain ⟨⟨a, fate⟩, hmem, rfl⟩ := h
  cases fate with
  | delivered => exact .inl hmem
  | dropped => exact .inl hmem
  | waiting => exact .inr ⟨rfl, hmem⟩

theorem ordered_dropWaiting (reason : ρ) (log : Log α ρ) : Ordered (dropWaiting reason log) := by
  refine List.pairwise_of_forall_mem_list ?_
  intro older holder newer _ hwaits
  have hmem : older.1 ∈ waiting (dropWaiting reason log) := mem_waiting.mpr (hwaits ▸ holder)
  simp at hmem

end MiscProjects.Mailbox

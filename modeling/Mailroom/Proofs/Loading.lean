import Mailroom.Machine.Emulator
import Mailroom.Proofs.Orders

/-!
# Loading programs

What the mailboxes hold after a program is copied into them.

Main results:

- Theorem `Memory.wordsOf_of_bounds`: numbers of sixteen bits are words.
- Theorem `Memory.exists_load`: a program of words that fits is loaded, and then its
  mailboxes hold it and the others hold what they held.
-/

namespace Mailroom

namespace Memory

/-- Numbers of sixteen bits are taken as words. -/
theorem wordsOf_of_bounds (address : Int) {values : List Int}
    (h : ∀ v ∈ values, -32768 ≤ v ∧ v ≤ 32767) :
    ∃ words, wordsOf address values = .ok words ∧ words.map (·.val) = values := by
  induction values generalizing address with
  | nil => exact ⟨[], rfl, rfl⟩
  | cons value rest ih =>
    rcases h value List.mem_cons_self with ⟨least, greatest⟩
    obtain ⟨words, hwords, hvalues⟩ :=
      ih (address + 1) fun v hv => h v (List.mem_cons_of_mem _ hv)
    have hword : Word.ofInt? value = some ⟨value, least, greatest⟩ :=
      Word.ofInt?_eq_some_iff.mpr rfl
    refine ⟨⟨value, least, greatest⟩ :: words, ?_, ?_⟩
    · simp only [wordsOf, hword, hwords, Except.map]
    · rw [List.map_cons, hvalues]

/-- The mailboxes below the offset and those behind the words hold what they held, and the
others hold the words. -/
theorem get_overlay (m : Memory) (offset : Nat) (words : List Word) (a : Address) :
    (m.overlay offset words).get a =
      if a.val < offset then m.get a else (words[a.val - offset]?).getD (m.get a) := by
  simp [overlay, get]

/-- A program of words that ends before the last mailbox is loaded.  The mailboxes from the
offset on hold its numbers, and the others hold what they held. -/
theorem exists_load (m : Memory) {program : List Int} {offset : Nat}
    (hwords : ∀ v ∈ program, -32768 ≤ v ∧ v ≤ 32767)
    (hfits : offset + program.length ≤ 99) :
    ∃ left, m.load program offset = .ok left ∧
      ∀ a : Address, (left.get a).val =
        if a.val < offset then (m.get a).val
        else (program[a.val - offset]?).getD (m.get a).val := by
  rcases wordsOf_of_bounds offset hwords with ⟨words, hok, rfl⟩
  have hload : ¬ ((offset : Int) < 0 ∨
      99 < (offset : Int) + ((words.map (·.val)).length : Int)) := by omega
  refine ⟨m.overlay offset words, ?_, ?_⟩
  · simp only [load, hload, if_false, hok, Except.map, Int.toNat_natCast]
  · intro a
    rw [get_overlay, apply_ite Word.val, List.getElem?_map]
    cases words[a.val - offset]? <;> rfl

/-- Every mailbox of an empty memory holds 0. -/
@[simp] theorem get_empty (a : Address) : (empty.get a).val = 0 := by
  simp [empty, get, Word.zero]

end Memory

namespace Emulator

/-- The machine of an emulator before its first step, with some memory. -/
def started (c : Configuration) (memory : Memory) : Machine :=
  { Machine.new with
    memory := memory
    counter := c.entry
    pending := (c.inputs.map (· ++ [0])).getD [] }

/-- An emulator without a program has empty mailboxes. -/
theorem new_of_nil {c : Configuration} (h : c.program = []) :
    (new c).outcome = .ok ⟨started c .empty, c.maxSteps, 0, #[], #[]⟩ := by
  simp only [new, h, if_true, Journal.pure_bind, started]
  cases c.inputs <;> rfl

/-- An emulator whose program is loaded has the program in its mailboxes. -/
theorem new_of_load {c : Configuration} {memory : Memory} (hne : c.program ≠ [])
    (h : Memory.empty.load c.program c.offset = .ok memory) :
    (new c).outcome = .ok ⟨started c memory, c.maxSteps, 0, #[], #[]⟩ := by
  have hnew : Machine.new.memory = .empty := rfl
  simp only [new, hne, if_false, load, hnew, h, Journal.ok_bind, started]
  cases c.inputs <;> rfl

/-- A new emulator has its program in its mailboxes if it has one, and has neither made steps nor
printed anything. -/
theorem exists_loaded {c : Configuration} {e : Emulator} (h : (new c).outcome = .ok e) :
    ∃ memory, e = ⟨started c memory, c.maxSteps, 0, #[], #[]⟩ ∧
      (c.program = [] ∧ memory = .empty ∨
        Memory.empty.load c.program c.offset = .ok memory) := by
  by_cases hnil : c.program = []
  · rw [new_of_nil hnil] at h
    exact ⟨.empty, (Except.ok.inj h).symm, .inl ⟨hnil, rfl⟩⟩
  · cases hload : Memory.empty.load c.program c.offset with
    | ok memory =>
      rw [new_of_load hnil hload] at h
      exact ⟨memory, (Except.ok.inj h).symm, .inr rfl⟩
    | error f =>
      have hnew : Machine.new.memory = .empty := rfl
      simp only [new, hnil, if_false, load, hnew, hload, Journal.refuse_bind] at h
      simp [Journal.refuse] at h

/-- A new emulator has neither made steps nor printed anything. -/
theorem exists_started {c : Configuration} {e : Emulator} (h : (new c).outcome = .ok e) :
    ∃ memory, e = ⟨started c memory, c.maxSteps, 0, #[], #[]⟩ := by
  obtain ⟨memory, he, -⟩ := exists_loaded h
  exact ⟨memory, he⟩

/-- A program of words that ends before the last mailbox gives an emulator, whose mailboxes
hold 0 around the program. -/
theorem exists_new {c : Configuration} {offset : Nat} (hoffset : c.offset = offset)
    (hwords : ∀ v ∈ c.program, -32768 ≤ v ∧ v ≤ 32767)
    (hfits : offset + c.program.length ≤ 99) :
    ∃ memory, (new c).outcome = .ok ⟨started c memory, c.maxSteps, 0, #[], #[]⟩ ∧
      ∀ a : Address, (memory.get a).val =
        if a.val < offset then 0 else c.program.getD (a.val - offset) 0 := by
  by_cases hne : c.program = []
  · refine ⟨.empty, new_of_nil hne, fun a => ?_⟩
    simp [hne]
  · rcases Memory.empty.exists_load hwords hfits with ⟨memory, hload, hget⟩
    rw [← hoffset] at hload
    refine ⟨memory, new_of_load hne hload, fun a => ?_⟩
    rw [hget a, Memory.get_empty, List.getD_eq_getElem?_getD]

end Emulator

end Mailroom

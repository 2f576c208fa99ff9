import Mathlib.Data.List.Basic

/-!
# Reading a file with a cursor

A reader moves a cursor over a file of bytes and may give up. Every place that a read or a
seek reaches is recorded, and the part of the file after `start` may be limited.
-/

namespace Preseed.Texts

abbrev Bytes := List UInt8

/-! ## Slices and numbers -/

/-- `blob[start:start + size]`. -/
def slice (blob : Bytes) (start size : ℕ) : Bytes := (blob.drop start).take size

/-- A number in little-endian order. -/
def littleEndian : Bytes → ℕ
  | [] => 0
  | byte :: rest => byte.toNat + 256 * littleEndian rest

theorem length_slice {blob : Bytes} {start size : ℕ} (h : start + size ≤ blob.length) :
    (slice blob start size).length = size := by
  unfold slice
  rw [List.length_take, List.length_drop]
  omega

theorem length_slice_le (blob : Bytes) (start size : ℕ) :
    (slice blob start size).length ≤ blob.length - start := by
  unfold slice
  rw [List.length_take, List.length_drop]
  exact Nat.min_le_right _ _

theorem take_add_slice (blob : Bytes) (start size : ℕ) :
    blob.take (start + size) = blob.take start ++ slice blob start size := List.take_add

theorem drop_eq_slice_append (blob : Bytes) (start size : ℕ) :
    blob.drop start = slice blob start size ++ blob.drop (start + size) := by
  unfold slice
  rw [← List.drop_drop, List.take_append_drop]

/-- A slice of a slice. -/
theorem slice_slice {blob : Bytes} {start size first count : ℕ} (h : first + count ≤ size) :
    slice (slice blob start size) first count = slice blob (start + first) count := by
  unfold slice
  rw [List.drop_take, List.take_take, List.drop_drop]
  congr 1
  omega

/-! ## Readers -/

/-- The cursor of an open file. -/
structure Cursor where
  position : ℕ
  /-- Where the limited part of the file starts; 0 before that. -/
  start : ℕ
  /-- The places that were reached, the latest one first. -/
  touched : List ℕ
  deriving DecidableEq

def Cursor.moveTo (s : Cursor) (position : ℕ) : Cursor :=
  { s with position := position, touched := position :: s.touched }

/-- A reader gives an answer or gives up, and leaves the cursor somewhere. -/
def Reading (α : Type) := Bytes → Cursor → Option α × Cursor

namespace Reading

variable {α β ι : Type}

def pure (a : α) : Reading α := fun _ s => (some a, s)

def bind (m : Reading α) (f : α → Reading β) : Reading β := fun file s =>
  match m file s with
  | (some a, t) => f a file t
  | (none, t) => (none, t)

instance : Monad Reading where
  pure := Reading.pure
  bind := Reading.bind

def fail : Reading α := fun _ s => (none, s)

def check (c : Prop) [Decidable c] : Reading Unit := if c then pure () else fail

/-- `for _ in range(count)` with a variable. -/
def loop (body : β → Reading β) : (count : ℕ) → β → Reading β
  | 0, b => pure b
  | count + 1, b => body b >>= loop body count

variable {m : Reading α}

theorem bind_some {file : Bytes} {s t : Cursor} {a : α} (h : m file s = (some a, t))
    (f : α → Reading β) : (m >>= f) file s = f a file t := by
  show Reading.bind m f file s = f a file t
  unfold Reading.bind
  rw [h]

theorem bind_none {file : Bytes} {s t : Cursor} (h : m file s = (none, t))
    (f : α → Reading β) : (m >>= f) file s = (none, t) := by
  show Reading.bind m f file s = (none, t)
  unfold Reading.bind
  rw [h]

variable {c : Prop}

theorem check_true [Decidable c] (h : c) (file : Bytes) (s : Cursor) :
    check c file s = (some (), s) := by
  unfold check
  rw [if_pos h]
  rfl

theorem check_false [Decidable c] (h : ¬c) (file : Bytes) (s : Cursor) :
    check c file s = (none, s) := by
  unfold check
  rw [if_neg h]
  rfl

/-! ## What a reader takes -/

/-- A reader may go on: it is inside the file and inside the limited part. -/
structure Ready (limit : ℕ) (file : Bytes) (s : Cursor) : Prop where
  started : 0 < s.start
  position : s.position ≤ file.length
  inside : ∀ place ∈ s.touched, place ≤ file.length ∧ place ≤ s.start + limit

/-- A reader has stopped: only the last place may be outside the limited part. -/
structure Stopped (limit start : ℕ) (file : Bytes) (s : Cursor) : Prop where
  inside : ∀ place ∈ s.touched, place ≤ file.length
  limited : ∀ place ∈ s.touched.tail, place ≤ start + limit

theorem Ready.stopped {limit : ℕ} {file : Bytes} {s : Cursor} (h : Ready limit file s) :
    Stopped limit s.start file s :=
  ⟨fun place hplace => (h.inside place hplace).1,
    fun place hplace => (h.inside place (List.mem_of_mem_tail hplace)).2⟩

/-- Whatever the file is, the reader stays where it may be, and when it answers, the bytes
that it has passed and its answer are as `Q` says. -/
def Reads (limit : ℕ) (m : Reading α) (Q : Bytes → α → Prop) : Prop :=
  ∀ file s, Ready limit file s →
    match m file s with
    | (none, t) => Stopped limit s.start file t
    | (some a, t) => Ready limit file t ∧ t.start = s.start ∧
        ∃ taken, file.drop s.position = taken ++ file.drop t.position ∧
          t.position = s.position + taken.length ∧ Q taken a

variable {limit : ℕ} {Q : Bytes → α → Prop}

theorem Reads.pure {a : α} (h : Q [] a) : Reads limit (Pure.pure a) Q := by
  intro file s hs
  exact ⟨hs, rfl, [], rfl, rfl, h⟩

theorem Reads.fail : Reads limit (Reading.fail : Reading α) Q := by
  intro file s hs
  exact hs.stopped

theorem Reads.mono {R : Bytes → α → Prop} (h : Reads limit m Q)
    (hQ : ∀ taken a, Q taken a → R taken a) : Reads limit m R := by
  intro file s hs
  have hm := h file s hs
  split at hm
  · exact hm
  · obtain ⟨ht, hstart, taken, hdrop, hposition, hq⟩ := hm
    exact ⟨ht, hstart, taken, hdrop, hposition, hQ taken _ hq⟩

/-- A reader after another one takes what follows. -/
theorem Reads.bind {R : Bytes → β → Prop} {f : α → Reading β} (h : Reads limit m Q)
    (hf : ∀ taken a, Q taken a → Reads limit (f a) fun more b => R (taken ++ more) b) :
    Reads limit (m >>= f) R := by
  intro file s hs
  have hm := h file s hs
  cases hrun : m file s with
  | mk answer t =>
    rw [hrun] at hm
    cases answer with
    | none =>
      rw [bind_none hrun]
      exact hm
    | some a =>
      obtain ⟨ht, hstart, taken, hdrop, hposition, hq⟩ := hm
      rw [bind_some hrun]
      have hnext := hf taken a hq file t ht
      cases hlast : f a file t with
      | mk answer u =>
        rw [hlast] at hnext
        cases answer with
        | none =>
          rw [hstart] at hnext
          exact hnext
        | some b =>
          obtain ⟨hu, hsame, more, hmore, hend, hr⟩ := hnext
          refine ⟨hu, hsame.trans hstart, taken ++ more, ?_, ?_, hr⟩
          · rw [hdrop, hmore, List.append_assoc]
          · rw [hend, hposition, List.length_append, Nat.add_assoc]

theorem Reads.check [Decidable c] :
    Reads limit (Reading.check c) fun taken _ => taken = [] ∧ c := by
  intro file s hs
  by_cases hc : c
  · rw [check_true hc]
    exact ⟨hs, rfl, [], rfl, rfl, rfl, hc⟩
  · rw [check_false hc]
    exact hs.stopped

/-- A checked condition is known afterwards. -/
theorem Reads.checked [Decidable c] {R : Bytes → β → Prop} {f : Unit → Reading β}
    (hf : c → Reads limit (f ()) R) : Reads limit (Reading.check c >>= f) R := by
  refine Reads.bind Reads.check ?_
  rintro taken ⟨⟩ ⟨rfl, hc⟩
  exact hf hc

/-- A loop takes one item after another. -/
theorem Reads.loop {body : β → Reading β} {bytes : ι → Bytes} {step : β → ι → β}
    (h : ∀ b, Reads limit (body b) fun taken b' => ∃ item, taken = bytes item ∧ b' = step b item)
    (count : ℕ) (b : β) :
    Reads limit (Reading.loop body count b) fun taken b' => ∃ items : List ι,
      items.length = count ∧ taken = (items.map bytes).flatten ∧ b' = items.foldl step b := by
  induction count generalizing b with
  | zero => exact Reads.pure ⟨[], rfl, rfl, rfl⟩
  | succ count ih =>
    refine Reads.bind (h b) ?_
    rintro taken b' ⟨item, rfl, rfl⟩
    refine Reads.mono (ih (step b item)) ?_
    rintro more last ⟨items, rfl, rfl, rfl⟩
    exact ⟨item :: items, rfl, rfl, rfl⟩

end Reading

end Preseed.Texts

/-
  Buffers with checked access.

  A buffer is a list.  `read` and `write` touch a range of it and fail where the range does not lie
  inside, so a computation in `Option` that is built from them succeeds if and only if all its
  accesses are in bounds.

  `Ok P m` says that `m` succeeds with a result that satisfies `P`; `Ok.bind` composes it along a
  computation, and `ok_read` and `ok_write` are the rules of the two operations, which need the
  lengths only.  `write_fresh` and `write_mid` say what a write leaves in a buffer that is filled
  from the front.
-/

namespace Checked

variable {α β γ : Type}

/-- The `n` elements from position `off` on. -/
def read (buf : List α) (off n : Nat) : Option (List α) :=
  if off + n ≤ buf.length then some ((buf.drop off).take n) else none

/-- The buffer with `data` at position `off`. -/
def write (buf : List α) (off : Nat) (data : List α) : Option (List α) :=
  if off + data.length ≤ buf.length then
    some (buf.take off ++ data ++ buf.drop (off + data.length))
  else none

/-! ## Computations that succeed -/

/-- `m` succeeds, and its result satisfies `P`. -/
def Ok (P : β → Prop) (m : Option β) : Prop := ∃ b, m = some b ∧ P b

theorem Ok.isSome {P : β → Prop} {m : Option β} (h : Ok P m) : m.isSome = true := by
  obtain ⟨b, rfl, -⟩ := h
  rfl

theorem ok_some {P : β → Prop} {b : β} (h : P b) : Ok P (some b) := ⟨b, rfl, h⟩

/-- **Composition.** -/
theorem Ok.bind {P : β → Prop} {Q : γ → Prop} {m : Option β} {f : β → Option γ} (hm : Ok P m)
    (hf : ∀ b, P b → Ok Q (f b)) : Ok Q (m >>= f) := by
  obtain ⟨b, rfl, hb⟩ := hm
  exact hf b hb

/-- Composition behind a step with a known result. -/
theorem ok_bind {Q : γ → Prop} {m : Option β} {f : β → Option γ} {b : β} (hm : m = some b)
    (hf : Ok Q (f b)) : Ok Q (m >>= f) := by
  rw [hm]
  exact hf

/-- What succeeds as a whole, succeeds at its first step. -/
theorem isSome_of_bind {m : Option β} {f : β → Option γ} (h : (m >>= f).isSome = true) :
    ∃ b, m = some b ∧ (f b).isSome = true := by
  cases m with
  | none => cases h
  | some b => exact ⟨b, rfl, h⟩

section Access

variable {buf buf' data : List α} {off n : Nat}

theorem read_isSome_iff : (read buf off n).isSome = true ↔ off + n ≤ buf.length := by
  unfold read
  split
  · rename_i h
    exact iff_of_true rfl h
  · rename_i h
    exact iff_of_false Bool.false_ne_true h

theorem read_eq (h : off + n ≤ buf.length) : read buf off n = some ((buf.drop off).take n) :=
  if_pos h

theorem ok_read (h : off + n ≤ buf.length) :
    Ok (fun data : List α => data.length = n) (read buf off n) := by
  refine ⟨_, read_eq h, ?_⟩
  show ((buf.drop off).take n).length = n
  rw [List.length_take, List.length_drop]
  omega

theorem write_eq (h : off + data.length ≤ buf.length) :
    write buf off data = some (buf.take off ++ data ++ buf.drop (off + data.length)) :=
  if_pos h

/-- A write does not change the length. -/
theorem length_of_write (h : write buf off data = some buf') : buf'.length = buf.length := by
  unfold write at h
  split at h
  · rw [← Option.some.inj h, List.length_append, List.length_append, List.length_take,
      List.length_drop]
    omega
  · cases h

theorem ok_write (h : off + data.length ≤ buf.length) :
    Ok (fun buf' : List α => buf'.length = buf.length) (write buf off data) :=
  ⟨_, write_eq h, length_of_write (write_eq h)⟩

end Access

/-! ## What a write leaves -/

/-- **A buffer that is filled from the front**, with a gap before the new data. -/
theorem write_fresh {front data : List α} {n off : Nat} (gap rest : Nat) (zero : α)
    (hoff : off = front.length + gap) (hn : n = gap + data.length + rest) :
    write (front ++ List.replicate n zero) off data
      = some (front ++ List.replicate gap zero ++ data ++ List.replicate rest zero) := by
  have hbound : off + data.length ≤ (front ++ List.replicate n zero).length := by
    rw [List.length_append, List.length_replicate]
    omega
  have htake : (front ++ List.replicate n zero).take off
      = front ++ List.replicate gap zero := by
    rw [hoff, List.take_append, List.take_of_length_le (by omega), Nat.add_sub_cancel_left,
      List.take_replicate, Nat.min_eq_left (by omega)]
  have hrest : n - (gap + data.length) = rest := by omega
  have hdrop : (front ++ List.replicate n zero).drop (off + data.length)
      = List.replicate rest zero := by
    rw [hoff, Nat.add_assoc, List.drop_append, List.drop_of_length_le (by omega),
      Nat.add_sub_cancel_left, List.drop_replicate, List.nil_append, hrest]
  rw [write_eq hbound, htake, hdrop]

/-- The same without a gap. -/
theorem write_next {front data : List α} {n off : Nat} (rest : Nat) (zero : α)
    (hoff : off = front.length) (hn : n = data.length + rest) :
    write (front ++ List.replicate n zero) off data
      = some (front ++ data ++ List.replicate rest zero) := by
  have hn' : n = 0 + data.length + rest := by omega
  rw [write_fresh 0 rest zero hoff hn', List.replicate_zero, List.append_nil]

/-- The first write. -/
theorem write_first {data : List α} {n : Nat} (rest : Nat) (zero : α)
    (hn : n = data.length + rest) :
    write (List.replicate n zero) 0 data = some (data ++ List.replicate rest zero) := by
  have hfirst : write ([] ++ List.replicate n zero) 0 data
      = some ([] ++ data ++ List.replicate rest zero) := write_next rest zero rfl hn
  exact hfirst

/-- A write over data of the same length. -/
theorem write_mid {front mid data back : List α} {off : Nat} (hoff : off = front.length)
    (hlen : data.length = mid.length) :
    write (front ++ mid ++ back) off data = some (front ++ data ++ back) := by
  have hbound : off + data.length ≤ (front ++ mid ++ back).length := by
    rw [List.length_append, List.length_append]
    omega
  have htake : (front ++ mid ++ back).take off = front := by
    rw [hoff, List.append_assoc, List.take_left]
  have hdrop : (front ++ mid ++ back).drop (off + data.length) = back := by
    have hsum : off + data.length = (front ++ mid).length := by
      rw [List.length_append]
      omega
    rw [hsum, List.drop_left]
  rw [write_eq hbound, htake, hdrop]

/-- A read of the whole buffer. -/
theorem read_all {buf : List α} {n : Nat} (h : n = buf.length) : read buf 0 n = some buf := by
  rw [read_eq (by omega), h]
  simp

end Checked

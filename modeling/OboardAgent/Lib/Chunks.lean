import Mathlib.Data.List.Basic

/-!
# Reading from a stream that comes in pieces, and writing to one that takes pieces

A connection hands over its bytes in pieces of any size, empty ones too. `io.ReadFull` asks for more
until it has what it was asked for. What it gets, and what it leaves, depend on the bytes only and
not on the pieces.

On the other side a connection may take a part of what it is given. Who writes goes on with the rest
until all is taken.
-/

namespace Chunks

variable {α : Type}

/-- `io.ReadFull` for so many elements; nothing if the stream ends before. -/
def readFull : Nat → List (List α) → Option (List α × List (List α))
  | 0, chunks => some ([], chunks)
  | _ + 1, [] => none
  | n + 1, chunk :: chunks =>
    if n + 1 ≤ chunk.length then some (chunk.take (n + 1), chunk.drop (n + 1) :: chunks)
    else (readFull (n + 1 - chunk.length) chunks).map fun (read, rest) => (chunk ++ read, rest)

/-- **What is read is the beginning of the stream, and the rest is left.** -/
theorem readFull_append {read tail : List α} {chunks : List (List α)} (h : chunks.flatten = read ++ tail) :
    ∃ rest, readFull read.length chunks = some (read, rest) ∧ rest.flatten = tail := by
  induction chunks generalizing read with
  | nil =>
    have hnil := h.symm
    simp only [List.flatten_nil, List.append_eq_nil_iff] at hnil
    obtain ⟨rfl, rfl⟩ := hnil
    exact ⟨[], rfl, rfl⟩
  | cons chunk chunks ih =>
    cases hlen : read.length with
    | zero =>
      rw [List.length_eq_zero_iff] at hlen
      subst hlen
      exact ⟨chunk :: chunks, rfl, h⟩
    | succ n =>
      rw [List.flatten_cons] at h
      unfold readFull
      split_ifs with hfits
      · -- The piece holds all of it.
        have htake : chunk.take (n + 1) = read := by
          have hhead : (chunk ++ chunks.flatten).take (n + 1) = chunk.take (n + 1) :=
              List.take_append_of_le_length hfits
          rw [← hhead, h, ← hlen, List.take_left']
          rfl
        have hdrop : chunk.drop (n + 1) ++ chunks.flatten = tail := by
          rw [← List.drop_append_of_le_length hfits, h, ← hlen, List.drop_left']
          rfl
        exact ⟨chunk.drop (n + 1) :: chunks, by rw [htake], by rw [List.flatten_cons, hdrop]⟩
      · -- It ends in a later one.
        obtain ⟨more, hread, hmore⟩ : ∃ more, read = chunk ++ more ∧ chunks.flatten = more ++ tail := by
          rcases List.append_eq_append_iff.mp h with ⟨more, hread, hrest⟩ | ⟨more, hchunk, -⟩
          · exact ⟨more, hread, hrest⟩
          · have hle := congrArg List.length hchunk
            rw [List.length_append] at hle
            omega
        obtain ⟨rest, hrest, htail⟩ := ih hmore
        have hcount : n + 1 - chunk.length = more.length := by
          have hle := congrArg List.length hread
          rw [List.length_append] at hle
          omega
        refine ⟨rest, ?_, htail⟩
        rw [hcount, hrest, hread]
        rfl

theorem readFull_short {n : Nat} {chunks : List (List α)} (h : chunks.flatten.length < n) :
    readFull n chunks = none := by
  induction chunks generalizing n with
  | nil =>
    obtain ⟨n, rfl⟩ := Nat.exists_eq_add_one_of_ne_zero (Nat.ne_of_gt (Nat.zero_lt_of_lt h))
    rfl
  | cons chunk chunks ih =>
    obtain ⟨n, rfl⟩ := Nat.exists_eq_add_one_of_ne_zero (Nat.ne_of_gt (Nat.zero_lt_of_lt h))
    rw [List.flatten_cons, List.length_append] at h
    unfold readFull
    rw [if_neg (by omega), ih (by omega)]
    rfl

/-! ## Writing -/

/-- A connection that is written to: what it has taken, and the answers to the next calls, each how
much it takes and whether it fails then. With no answer left it takes everything. -/
structure Sink (α : Type) where
  taken : List α
  answers : List (Nat × Bool)

namespace Sink

/-- One call of `Write`: how much was taken, whether it failed, and the connection after. -/
def write (s : Sink α) (data : List α) : Nat × Bool × Sink α :=
  match s.answers with
  | [] => (data.length, false, ⟨s.taken ++ data, []⟩)
  | (n, failed) :: answers => (min n data.length, failed, ⟨s.taken ++ data.take n, answers⟩)

/-- The loop that writes until all is taken; a call that fails or takes nothing ends it. -/
def writeAll (s : Sink α) (data : List α) : Option (Sink α) :=
  match data with
  | [] => some s
  | b :: bs =>
    match s.write (b :: bs) with
    | (_, true, _) => none
    | (0, false, _) => none
    | (n + 1, false, s') => s'.writeAll (bs.drop n)
termination_by data.length
decreasing_by
  rw [List.length_drop, List.length_cons]
  omega

/-- A connection that does not fail, and takes something at every call. -/
def Willing (s : Sink α) : Prop := ∀ answer ∈ s.answers, 0 < answer.1 ∧ answer.2 = false

theorem write_taken (s : Sink α) (data : List α) :
    (s.write data).2.2.taken = s.taken ++ data.take (s.write data).1 := by
  unfold write
  split
  · rw [List.take_length]
  · rename_i n failed answers _
    dsimp only
    rw [List.take_eq_take_min]

/-- **A loop that ends well has written all, in order.** -/
theorem writeAll_taken {s s' : Sink α} {data : List α} (h : s.writeAll data = some s') :
    s'.taken = s.taken ++ data := by
  fun_induction writeAll s data with
  | case1 s =>
    cases h
    rw [List.append_nil]
  | case2 => exact nomatch h
  | case3 => exact nomatch h
  | case4 s b bs n after hwrite ih =>
    have htaken := s.write_taken (b :: bs)
    rw [hwrite] at htaken
    rw [ih h, htaken, List.take_succ_cons, List.append_assoc, List.cons_append, List.take_append_drop]

theorem write_willing {s : Sink α} (h : s.Willing) (b : α) (bs : List α) :
    ∃ n s', s.write (b :: bs) = (n + 1, false, s') ∧ s'.Willing := by
  unfold write
  split
  · exact ⟨bs.length, _, rfl, by intro answer hmem; exact nomatch hmem⟩
  · rename_i n failed answers hanswers
    obtain ⟨hpos, hok⟩ := h (n, failed) (by rw [hanswers]; exact List.mem_cons_self)
    dsimp only at hpos hok
    subst hok
    refine ⟨min n (b :: bs).length - 1, ⟨s.taken ++ (b :: bs).take n, answers⟩, ?_, ?_⟩
    · have hmin : 0 < min n (b :: bs).length := Nat.lt_min.mpr ⟨hpos, Nat.succ_pos _⟩
      rw [Nat.sub_add_cancel hmin]
    · intro answer hmem
      exact h answer (by rw [hanswers]; exact List.mem_cons_of_mem _ hmem)

/-- **On a willing connection the loop ends well.** -/
theorem writeAll_willing {s : Sink α} (h : s.Willing) (data : List α) :
    ∃ s', s.writeAll data = some s' ∧ s'.Willing := by
  fun_induction writeAll s data with
  | case1 s => exact ⟨s, rfl, h⟩
  | case2 s b bs _ _ hwrite =>
    obtain ⟨n, after, hwilling, -⟩ := write_willing h b bs
    exact nomatch hwrite.symm.trans hwilling
  | case3 s b bs _ hwrite =>
    obtain ⟨n, after, hwilling, -⟩ := write_willing h b bs
    exact nomatch hwrite.symm.trans hwilling
  | case4 s b bs n after hwrite ih =>
    obtain ⟨_, _, hwilling, hafter⟩ := write_willing h b bs
    cases hwrite.symm.trans hwilling
    exact ih hafter

end Sink

end Chunks

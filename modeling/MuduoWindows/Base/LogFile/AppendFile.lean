import MuduoWindows.Base.LogFile

/-! # base/fileUtil.cpp: errors of a file

`_fwrite_nolock` may accept only a part of what it is given. `append` goes on with the rest, unless
`ferror` is set. How much is accepted and whether there is an error is up to the stream.
-/

namespace MuduoWindows.Base
open Library Net

/-- How many of `remain` bytes a call of `_fwrite_nolock` accepts, and whether `ferror` is set
behind it. Without an error it accepts something. -/
structure Fwrite (remain : ℕ) where
  n : ℕ
  ferror : Bool
  n_le : n ≤ remain
  progress : n < remain → ferror = false → 0 < n

/-- A call of `AppendFile::append`, with the results of the calls of `_fwrite_nolock` in it. -/
structure AppendCall where
  logline : List UInt8
  fwrite : ℕ → (remain : ℕ) → Fwrite remain

namespace AppendCall
variable (c : AppendCall) {i written : ℕ}

/-- The result of call `i`, which comes with `written` bytes behind it. -/
def result (i written : ℕ) : Fwrite (c.logline.length - written) :=
  c.fwrite i (c.logline.length - written)

/-- The error exit is taken behind call `i`. -/
def Fails (i written : ℕ) : Prop :=
  (c.result i written).n ≠ c.logline.length - written ∧ (c.result i written).ferror = true

instance : Decidable (c.Fails i written) := inferInstanceAs (Decidable (_ ∧ _))

variable {c}

theorem result_pos (hle : written ≤ c.logline.length) (hmore : written ≠ c.logline.length)
    (hok : ¬ c.Fails i written) : 0 < (c.result i written).n := by
  obtain heq | hlt := (c.result i written).n_le.eq_or_lt
  · omega
  · refine (c.result i written).progress hlt (Bool.eq_false_iff.mpr fun herr => ?_)
    exact hok ⟨hlt.ne, herr⟩

theorem le_next (hle : written ≤ c.logline.length) :
    written + (c.result i written).n ≤ c.logline.length := by
  have hn := (c.result i written).n_le
  omega

variable (c)

/-- The loop of `append` from call `i` on: `written` at its end, and the bytes accepted. -/
def loop (i written : ℕ) (hle : written ≤ c.logline.length) : ℕ × List UInt8 :=
  if _hdone : written = c.logline.length then (written, [])
  else
    let bytes := (c.logline.drop written).take (c.result i written).n
    if _herr : c.Fails i written then (written, bytes)
    else
      let rest := loop (i + 1) (written + (c.result i written).n) (le_next hle)
      (rest.1, bytes ++ rest.2)
termination_by c.logline.length - written
decreasing_by
  have hpos := result_pos hle _hdone _herr
  omega

/-- All of `append`. -/
def run : ℕ × List UInt8 := c.loop 0 0 (Nat.zero_le _)

/-- Call `i` is made with `written` bytes behind it, if any bytes remain. -/
inductive Reaches : ℕ → ℕ → Prop
  | start : Reaches 0 0
  | next {i written : ℕ} : Reaches i written → written ≠ c.logline.length →
      ¬ c.Fails i written → Reaches (i + 1) (written + (c.result i written).n)

def Failing (i written : ℕ) : Prop :=
  c.Reaches i written ∧ written < c.logline.length ∧ c.Fails i written

/-- A call of `_fwrite_nolock` that reports an error has accepted nothing. -/
def Counted : Prop := ∀ i written, c.Failing i written → (c.result i written).n = 0

variable {c}

theorem loop_done {hle : c.logline.length ≤ c.logline.length} :
    c.loop i c.logline.length hle = (c.logline.length, []) := by
  rw [loop, dif_pos rfl]

theorem loop_fails {hle : written ≤ c.logline.length} (hlt : written < c.logline.length)
    (hfails : c.Fails i written) : c.loop i written hle =
      (written, (c.logline.drop written).take (c.result i written).n) := by
  rw [loop, dif_neg hlt.ne]
  exact dif_pos hfails

theorem loop_next {hle : written ≤ c.logline.length} (hmore : written ≠ c.logline.length)
    (hok : ¬ c.Fails i written) : c.loop i written hle =
      ((c.loop (i + 1) (written + (c.result i written).n) (le_next hle)).1,
        (c.logline.drop written).take (c.result i written).n ++
          (c.loop (i + 1) (written + (c.result i written).n) (le_next hle)).2) := by
  rw [loop, dif_neg hmore]
  exact dif_neg hok

theorem Reaches.le (h : c.Reaches i written) : written ≤ c.logline.length := by
  induction h with
  | start => exact Nat.zero_le _
  | next _ _ _ ih => exact le_next ih

/-- Every call but the last accepts something, so there are no more calls than bytes. -/
theorem Reaches.index_le (h : c.Reaches i written) : i ≤ written := by
  induction h with
  | start => exact le_rfl
  | next h hmore hok ih =>
    have hpos := result_pos h.le hmore hok
    omega

theorem Reaches.run_eq (h : c.Reaches i written) : c.run =
    ((c.loop i written h.le).1, c.logline.take written ++ (c.loop i written h.le).2) := by
  induction h with
  | start => rfl
  | next h hmore hok ih =>
    rw [ih, loop_next hmore hok, ← List.append_assoc, ← List.take_add]

theorem Reaches.exists_end (h : c.Reaches i written) :
    (∃ j, c.Reaches j c.logline.length) ∨ ∃ j w, c.Failing j w := by
  induction hremain : c.logline.length - written using Nat.strong_induction_on
    generalizing i written with
  | _ remain ih =>
    have hle := h.le
    by_cases hdone : written = c.logline.length
    · exact .inl ⟨i, hdone ▸ h⟩
    · by_cases hfails : c.Fails i written
      · exact .inr ⟨i, written, h, lt_of_le_of_ne hle hdone, hfails⟩
      · have hpos := result_pos hle hdone hfails
        exact ih _ (by omega) (h.next hdone hfails) rfl

theorem Failing.run_eq (h : c.Failing i written) :
    c.run = (written, c.logline.take (written + (c.result i written).n)) := by
  rw [h.1.run_eq, loop_fails h.2.1 h.2.2, List.take_add]

theorem Reaches.run_eq_whole (h : c.Reaches i c.logline.length) :
    c.run = (c.logline.length, c.logline) := by
  rw [h.run_eq, loop_done, List.take_length, List.append_nil]

theorem run_cases : c.run = (c.logline.length, c.logline) ∨ ∃ i written, c.Failing i written ∧
    c.run = (written, c.logline.take (written + (c.result i written).n)) := by
  obtain ⟨j, hj⟩ | ⟨j, w, hfailing⟩ := (Reaches.start (c := c)).exists_end
  · exact .inl hj.run_eq_whole
  · exact .inr ⟨j, w, hfailing, hfailing.run_eq⟩

theorem run_prefix : c.run.2 <+: c.logline := by
  obtain heq | ⟨i, w, -, heq⟩ := c.run_cases <;> rw [heq]
  · exact List.take_prefix _ _

theorem run_le : c.run.1 ≤ c.run.2.length := by
  obtain heq | ⟨i, w, ⟨-, hlt, -⟩, heq⟩ := c.run_cases <;> rw [heq]
  · have hn := (c.result i w).n_le
    rw [List.length_take]
    omega

theorem counted_iff : c.Counted ↔ c.run.1 = c.run.2.length := by
  constructor
  · intro hc
    obtain heq | ⟨i, w, hfailing, heq⟩ := c.run_cases <;> rw [heq]
    · rw [hc i w hfailing, List.length_take]
      exact (min_eq_left hfailing.2.1.le).symm
  · intro heq i w hfailing
    have hn := (c.result i w).n_le
    have hlt := hfailing.2.1
    rw [hfailing.run_eq, List.length_take] at heq
    dsimp only at heq
    omega

end AppendCall

/-- An open file, with all bytes that its stream has accepted. -/
structure AppendStream where
  file : AppendFile
  accepted : List UInt8

namespace AppendStream

/-- `writtenBytes_` is an `int64_t`. -/
def toInt64 (x : ℤ) : ℤ := x.bmod (2 ^ 64)

def opened (filename : List UInt8) : AppendStream := ⟨⟨filename, 0⟩, []⟩

def append (s : AppendStream) (c : AppendCall) : AppendStream :=
  { file := { s.file with writtenBytes := toInt64 (s.file.writtenBytes + c.run.1) }
    accepted := s.accepted ++ c.run.2 }

def appendFile : Machine AppendStream AppendCall Fault where
  enabled _ _ := True
  step s c := .ok (s.append c)

variable {filename : List UInt8} {cs : List AppendCall} {s : AppendStream}

theorem toInt64_of_lt {n : ℕ} (h : n < 2 ^ 63) : toInt64 n = n := by
  unfold toInt64
  rw [Int.bmod_eq_of_le] <;> omega

theorem toInt64_lt (x : ℤ) : toInt64 x < 2 ^ 63 := by
  have h := Int.bmod_lt (x := x) (m := 2 ^ 64) (by decide)
  unfold toInt64
  omega

def counted (cs : List AppendCall) : ℕ := (cs.map fun c => c.run.1).sum

theorem run_counts (h : appendFile.Run Machine.Any (opened filename) cs s) :
    s.file = ⟨filename, toInt64 (counted cs)⟩ ∧
      s.accepted = (cs.map fun c => c.run.2).flatten := by
  refine h.invariant_trace (fun cs s => s.file = ⟨filename, toInt64 (counted cs)⟩ ∧
    s.accepted = (cs.map fun c => c.run.2).flatten) ⟨rfl, rfl⟩ ?_
  rintro cs s c u ⟨hfile, haccepted⟩ - - hu
  obtain rfl := Except.ok.inj hu
  unfold append
  rw [hfile, haccepted, List.map_append, List.flatten_append]
  refine ⟨?_, by simp⟩
  unfold counted toInt64
  rw [List.map_append, List.sum_append, Nat.cast_add, Int.bmod_add_bmod]
  simp

theorem counted_le (cs : List AppendCall) :
    counted cs ≤ ((cs.map fun c => c.run.2).flatten).length := by
  induction cs with
  | nil => exact le_rfl
  | cons c cs ih =>
    have hc := c.run_le
    unfold counted at ih ⊢
    rw [List.map_cons, List.sum_cons, List.map_cons, List.flatten_cons, List.length_append]
    omega

theorem counted_eq_iff (cs : List AppendCall) :
    counted cs = ((cs.map fun c => c.run.2).flatten).length ↔ ∀ c ∈ cs, c.Counted := by
  induction cs with
  | nil => exact iff_of_true rfl nofun
  | cons c cs ih =>
    have hc := c.run_le
    have hcs := counted_le cs
    rw [List.forall_mem_cons, ← ih, AppendCall.counted_iff]
    unfold counted at hcs ⊢
    rw [List.map_cons, List.sum_cons, List.map_cons, List.flatten_cons, List.length_append]
    omega

/-- For any lines and any behaviour of the stream: each call ends with the first bytes of its line
accepted, all of them unless there was an error, and the count is right exactly if no call of
`_fwrite_nolock` that reported an error has accepted anything, and an `int64_t` holds it. -/
theorem written_counted_iff (h : appendFile.Run Machine.Any (opened filename) cs s) :
    (∀ c ∈ cs, (∀ i written, c.Reaches i written → i ≤ c.logline.length) ∧
      c.run.2 <+: c.logline ∧ (c.run.2 = c.logline ∨ ∃ i written, c.Failing i written)) ∧
    s.accepted = (cs.map fun c => c.run.2).flatten ∧
    (s.file.writtenBytes = s.accepted.length ↔
      (∀ c ∈ cs, c.Counted) ∧ s.accepted.length < 2 ^ 63) := by
  obtain ⟨hfile, haccepted⟩ := run_counts h
  refine ⟨fun c _ => ⟨fun i w hreaches => hreaches.index_le.trans hreaches.le,
    AppendCall.run_prefix, ?_⟩, haccepted, ?_⟩
  · obtain heq | ⟨i, w, hfailing, -⟩ := c.run_cases
    · exact .inl (congrArg Prod.snd heq)
    · exact .inr ⟨i, w, hfailing⟩
  · have hle := counted_le cs
    rw [hfile, ← counted_eq_iff, ← haccepted]
    rw [← haccepted] at hle
    dsimp only
    constructor
    · intro heq
      have hlt := toInt64_lt (counted cs)
      have hbound : s.accepted.length < 2 ^ 63 := by omega
      rw [toInt64_of_lt (hle.trans_lt hbound)] at heq
      exact ⟨Int.ofNat_inj.mp heq, hbound⟩
    · rintro ⟨heq, hbound⟩
      rw [toInt64_of_lt (hle.trans_lt hbound), heq]

/-- One line is accepted byte by byte, nothing of the next. -/
theorem written_counted_two : ∃ (cs : List AppendCall) (s : AppendStream),
    appendFile.Run Machine.Any (opened []) cs s ∧
      cs.map AppendCall.logline = [[97, 98], [99]] ∧
      s.accepted = [97, 98] ∧ s.file.writtenBytes = 2 := by
  let c : AppendCall :=
    { logline := [97, 98]
      fwrite := fun _ remain => ⟨min 1 remain, false, min_le_right _ _, fun h _ => by omega⟩ }
  let d : AppendCall :=
    { logline := [99]
      fwrite := fun _ remain => ⟨0, true, Nat.zero_le _, nofun⟩ }
  have hc : ∀ i w, ¬ c.Failing i w := fun i w h => absurd h.2.2.2 nofun
  have hd : d.Failing 0 0 := ⟨.start, by decide, by decide⟩
  have hrun : appendFile.Run Machine.Any (opened []) [c, d] (((opened []).append c).append d) :=
    (Machine.Run.single trivial trivial rfl).append (Machine.Run.single trivial trivial rfl)
  obtain ⟨hlines, haccepted, hiff⟩ := written_counted_iff hrun
  obtain ⟨-, -, hwhole⟩ := hlines c List.mem_cons_self
  have hline : c.run.2 = [97, 98] := hwhole.resolve_right fun ⟨i, w, h⟩ => hc i w h
  have hnone : d.run.2 = [] := congrArg Prod.snd hd.run_eq
  have hall : (((opened []).append c).append d).accepted = [97, 98] := by
    rw [haccepted, List.map_cons, List.map_cons, hline, hnone]
    rfl
  refine ⟨[c, d], _, hrun, rfl, hall, ?_⟩
  rw [hiff.mpr ⟨?_, by rw [hall]; decide⟩, hall]
  · rfl
  · intro e he i w h
    obtain rfl | he := List.mem_cons.mp he
    · exact absurd h (hc i w)
    · obtain rfl := List.mem_singleton.mp he
      rfl

/-- The stream accepts one byte of two and reports an error. -/
theorem partial_uncounted : ¬ ∀ (filename : List UInt8) (cs : List AppendCall) (s : AppendStream),
    appendFile.Run Machine.Any (opened filename) cs s →
      s.file.writtenBytes = s.accepted.length := by
  let c : AppendCall :=
    { logline := [97, 98]
      fwrite := fun _ remain => ⟨min 1 remain, true, min_le_right _ _, fun _ h => nomatch h⟩ }
  have hfailing : c.Failing 0 0 := ⟨.start, by decide, by decide⟩
  intro hcounts
  have hcount := hcounts [] [c] ((opened []).append c) (Machine.Run.single trivial trivial rfl)
  unfold append at hcount
  rw [hfailing.run_eq] at hcount
  exact absurd hcount (by decide)

end AppendStream

namespace LogFile

/-- As long as there are no errors, a log file appends to its file in the same way. -/
theorem write_eq_append {s : LogFile} {f : AppendFile} {e : Append} {c : AppendCall}
    (hline : c.logline = e.logline) (hok : ∀ i written, ¬ c.Failing i written)
    (he : (writeLoop e.logline 0 e.accepted).1 = e.logline.length)
    {disk : List UInt8} (hdisk : s.disk f.filename = disk) {count : ℕ}
    (hcount : f.writtenBytes = count) (hlt : count + e.logline.length < 2 ^ 63) :
    s.write f e = { s with
      file := some ((AppendStream.mk f disk).append c).file
      disk := Function.update s.disk f.filename
        ((AppendStream.mk f disk).append c).accepted } := by
  have hrun : c.run = (e.logline.length, e.logline) := by
    obtain heq | ⟨i, w, hfailing, -⟩ := c.run_cases
    · rw [heq, hline]
    · exact absurd hfailing (hok i w)
  rw [write_eq he, AppendStream.append, hrun, hdisk, hcount]
  dsimp only
  rw [← Nat.cast_add, AppendStream.toInt64_of_lt hlt]

end LogFile
end MuduoWindows.Base

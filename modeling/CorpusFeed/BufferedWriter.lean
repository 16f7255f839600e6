import Mathlib.Data.Nat.Notation

/-! A buffered writer over a device that takes a part of a write, interrupts it
or fails it, and a writer around it that keeps what was accepted. Whatever the
device does, the device and the buffer together hold what was accepted. -/

namespace CorpusFeed

/-- What the device does with its next write. -/
inductive DeviceAnswer where
  | took (n : ℕ)
  | interrupted
  | failed

inductive WriteError where
  | writeZero
  | interrupted
  | failed
deriving DecidableEq

/-- The device refuses all writes after the last of its answers. -/
structure BufferedWriter (β : Type*) where
  capacity : ℕ
  device : List β
  buffer : List β
  answers : List DeviceAnswer

namespace BufferedWriter

variable {β : Type*}

def taken (w : BufferedWriter β) : List β := w.device ++ w.buffer

def deviceWrite (w : BufferedWriter β) (bytes : List β) : Except WriteError ℕ × BufferedWriter β :=
  match w.answers with
  | [] => (.error .failed, w)
  | .took n :: answers =>
    (.ok (min n bytes.length), { w with device := w.device ++ bytes.take n, answers := answers })
  | .interrupted :: answers => (.error .interrupted, { w with answers := answers })
  | .failed :: answers => (.error .failed, { w with answers := answers })

/-- Interrupted writes are made again, and what the device took leaves the buffer
also when a later write fails. -/
def flushLoop (capacity : ℕ) : List DeviceAnswer → List β → List β → Except WriteError Unit × BufferedWriter β
  | answers, device, [] => (.ok (), ⟨capacity, device, [], answers⟩)
  | [], device, b :: buffer => (.error .failed, ⟨capacity, device, b :: buffer, []⟩)
  | .took n :: answers, device, b :: buffer =>
    if n = 0 then (.error .writeZero, ⟨capacity, device, b :: buffer, answers⟩)
    else flushLoop capacity answers (device ++ (b :: buffer).take n) ((b :: buffer).drop n)
  | .interrupted :: answers, device, b :: buffer => flushLoop capacity answers device (b :: buffer)
  | .failed :: answers, device, b :: buffer => (.error .failed, ⟨capacity, device, b :: buffer, answers⟩)

def flushBuf (w : BufferedWriter β) : Except WriteError Unit × BufferedWriter β :=
  flushLoop w.capacity w.answers w.device w.buffer

def spareCapacity (w : BufferedWriter β) : ℕ := w.capacity - w.buffer.length

def keep (w : BufferedWriter β) (bytes : List β) : Except WriteError ℕ × BufferedWriter β :=
  (.ok bytes.length, { w with buffer := w.buffer ++ bytes })

/-- A write that the buffer has no room for flushes it first, and goes past it
when it is as long as the buffer. -/
def write (w : BufferedWriter β) (bytes : List β) : Except WriteError ℕ × BufferedWriter β :=
  if bytes.length < w.spareCapacity then w.keep bytes
  else
    match if w.spareCapacity < bytes.length then w.flushBuf else (.ok (), w) with
    | (.error e, w) => (.error e, w)
    | (.ok (), w) => if w.capacity ≤ bytes.length then w.deviceWrite bytes else w.keep bytes

section Flush

theorem flushLoop_taken (capacity : ℕ) (answers : List DeviceAnswer) (device buffer : List β) :
    (flushLoop capacity answers device buffer).2.taken = device ++ buffer := by
  induction answers generalizing device buffer with
  | nil => cases buffer <;> rfl
  | cons answer answers ih =>
    cases buffer with
    | nil => cases answer <;> rfl
    | cons b buffer =>
      cases answer with
      | took n =>
        by_cases hn : n = 0
        · simp [flushLoop, hn, taken]
        · rw [flushLoop, if_neg hn, ih, List.append_assoc, List.take_append_drop]
      | interrupted => exact ih device (b :: buffer)
      | failed => rfl

theorem flushLoop_ok {capacity : ℕ} {answers : List DeviceAnswer} {device buffer : List β} {w : BufferedWriter β}
    (h : flushLoop capacity answers device buffer = (.ok (), w)) : w.buffer = [] ∧ w.capacity = capacity := by
  induction answers generalizing device buffer with
  | nil =>
    cases buffer with
    | nil =>
      cases h
      exact ⟨rfl, rfl⟩
    | cons b buffer => cases h
  | cons answer answers ih =>
    cases buffer with
    | nil =>
      cases answer <;> cases h <;> exact ⟨rfl, rfl⟩
    | cons b buffer =>
      cases answer with
      | took n =>
        by_cases hn : n = 0
        · simp [flushLoop, hn] at h
        · rw [flushLoop, if_neg hn] at h
          exact ih h
      | interrupted => exact ih h
      | failed => cases h

theorem flushLoop_answers (capacity : ℕ) (answers : List DeviceAnswer) (device buffer : List β) :
    (flushLoop capacity answers device buffer).2.answers.length ≤ answers.length := by
  induction answers generalizing device buffer with
  | nil => cases buffer <;> simp [flushLoop]
  | cons answer answers ih =>
    cases buffer with
    | nil => cases answer <;> simp [flushLoop]
    | cons b buffer =>
      cases answer with
      | took n =>
        by_cases hn : n = 0
        · simp [flushLoop, hn]
        · rw [flushLoop, if_neg hn, List.length_cons]
          exact Nat.le_succ_of_le (ih _ _)
      | interrupted => exact Nat.le_succ_of_le (ih device (b :: buffer))
      | failed => simp [flushLoop]

/-- A flush does not end with an interruption. -/
theorem flushLoop_interrupted {capacity : ℕ} {answers : List DeviceAnswer} {device buffer : List β}
    {w : BufferedWriter β} : flushLoop capacity answers device buffer ≠ (.error .interrupted, w) := by
  induction answers generalizing device buffer with
  | nil => cases buffer <;> simp [flushLoop]
  | cons answer answers ih =>
    cases buffer with
    | nil => cases answer <;> simp [flushLoop]
    | cons b buffer =>
      cases answer with
      | took n =>
        by_cases hn : n = 0
        · simp [flushLoop, hn]
        · rw [flushLoop, if_neg hn]
          exact ih
      | interrupted => exact ih
      | failed => simp [flushLoop]

end Flush

/-- What a result says of the written bytes: which of them were accepted. -/
def accepted (result : Except WriteError ℕ) (bytes : List β) : List β :=
  match result with
  | .ok n => bytes.take n
  | .error _ => []

section Write

variable {w w' : BufferedWriter β} {bytes : List β} {result : Except WriteError ℕ}

theorem deviceWrite_spec (h : w.deviceWrite bytes = (result, w')) (hempty : w.buffer = [] ∨ bytes = []) :
    w'.taken = w.taken ++ accepted result bytes ∧ w'.answers.length ≤ w.answers.length ∧
      (result = .error .interrupted → w'.answers.length < w.answers.length) := by
  unfold deviceWrite at h
  split at h
  · cases h
    exact ⟨by simp [accepted], Nat.le_refl _, by simp⟩
  · next n answers hanswers =>
    cases h
    refine ⟨?_, by simp [hanswers], by simp⟩
    rcases hempty with hnil | hnil
    · simp [taken, accepted, hnil, List.take_eq_take_min]
    · simp [taken, accepted, hnil]
  · next answers hanswers =>
    cases h
    exact ⟨by simp [taken, accepted], by simp [hanswers], by simp [hanswers]⟩
  · next answers hanswers =>
    cases h
    exact ⟨by simp [taken, accepted], by simp [hanswers], by simp⟩

theorem keep_spec (h : w.keep bytes = (result, w')) :
    w'.taken = w.taken ++ accepted result bytes ∧ w'.answers = w.answers ∧ result ≠ .error .interrupted := by
  cases h
  exact ⟨by simp [taken, accepted], rfl, by simp⟩

/-- A write hands over the bytes that it says it accepted. Only an answer of the
device interrupts it. -/
theorem write_spec (h : w.write bytes = (result, w')) :
    w'.taken = w.taken ++ accepted result bytes ∧ w'.answers.length ≤ w.answers.length ∧
      (result = .error .interrupted → w'.answers.length < w.answers.length) := by
  have hkeep : ∀ v : BufferedWriter β, v.keep bytes = (result, w') → v.taken = w.taken →
      v.answers.length ≤ w.answers.length →
      w'.taken = w.taken ++ accepted result bytes ∧ w'.answers.length ≤ w.answers.length ∧
        (result = .error .interrupted → w'.answers.length < w.answers.length) := by
    intro v hv htaken hanswers
    obtain ⟨htaken', hsame, hne⟩ := keep_spec hv
    exact ⟨by rw [htaken', htaken], by rw [hsame]; exact hanswers, fun hint => absurd hint hne⟩
  have hdevice : ∀ v : BufferedWriter β, v.deviceWrite bytes = (result, w') → v.taken = w.taken →
      v.answers.length ≤ w.answers.length → v.buffer = [] ∨ bytes = [] →
      w'.taken = w.taken ++ accepted result bytes ∧ w'.answers.length ≤ w.answers.length ∧
        (result = .error .interrupted → w'.answers.length < w.answers.length) := by
    intro v hv htaken hanswers hempty
    obtain ⟨htaken', hle, hlt⟩ := deviceWrite_spec hv hempty
    exact ⟨by rw [htaken', htaken], Nat.le_trans hle hanswers, fun hint => Nat.lt_of_lt_of_le (hlt hint) hanswers⟩
  unfold write at h
  by_cases hroom : bytes.length < w.spareCapacity
  · rw [if_pos hroom] at h
    exact hkeep w h rfl (Nat.le_refl _)
  · rw [if_neg hroom] at h
    by_cases hover : w.spareCapacity < bytes.length
    · rw [if_pos hover] at h
      have htaken := flushLoop_taken w.capacity w.answers w.device w.buffer
      have hanswers := flushLoop_answers w.capacity w.answers w.device w.buffer
      split at h
      · next e v hflush =>
        cases h
        rw [← flushBuf, hflush] at htaken hanswers
        refine ⟨by rw [htaken, accepted, List.append_nil]; rfl, hanswers, fun hint => ?_⟩
        rw [Except.error.inj hint] at hflush
        exact absurd hflush flushLoop_interrupted
      · next v hflush =>
        rw [← flushBuf, hflush] at htaken hanswers
        split at h
        · exact hdevice v h htaken hanswers (Or.inl (flushLoop_ok hflush).1)
        · exact hkeep v h htaken hanswers
    · rw [if_neg hover] at h
      simp only at h
      split at h
      · next hlong =>
        -- the write is as long as the whole buffer and as the room in it
        refine hdevice w h rfl (Nat.le_refl _) ?_
        unfold spareCapacity at hroom hover
        by_cases hnil : w.buffer = []
        · exact Or.inl hnil
        · have hpos := List.length_pos_iff.mpr hnil
          exact Or.inr (List.length_eq_zero_iff.mp (by omega))
      · exact hkeep w h rfl (Nat.le_refl _)

end Write

end BufferedWriter

/-- `hashed` is what was fed to the hasher. -/
structure HashingWriter (β : Type*) where
  inner : BufferedWriter β
  hashed : List β

namespace HashingWriter

variable {β : Type*}

def write (w : HashingWriter β) (bytes : List β) : Except WriteError ℕ × HashingWriter β :=
  match w.inner.write bytes with
  | (.ok n, inner) => (.ok n, ⟨inner, w.hashed ++ bytes.take n⟩)
  | (.error e, inner) => (.error e, ⟨inner, w.hashed⟩)

def flush (w : HashingWriter β) : Except WriteError Unit × HashingWriter β :=
  (w.inner.flushBuf.1, { w with inner := w.inner.flushBuf.2 })

/-- The writer and its hasher went on by the same bytes. -/
structure Wrote (bytes : List β) (w w' : HashingWriter β) : Prop where
  taken : w'.inner.taken = w.inner.taken ++ bytes
  hashed : w'.hashed = w.hashed ++ bytes

theorem Wrote.refl (w : HashingWriter β) : Wrote [] w w := ⟨(List.append_nil _).symm, (List.append_nil _).symm⟩

theorem Wrote.trans {xs ys : List β} {w v u : HashingWriter β} (h : Wrote xs w v) (h' : Wrote ys v u) :
    Wrote (xs ++ ys) w u :=
  ⟨by rw [h'.taken, h.taken, List.append_assoc], by rw [h'.hashed, h.hashed, List.append_assoc]⟩

section Write

variable {w w' : HashingWriter β} {bytes : List β} {result : Except WriteError ℕ}

theorem write_spec (h : w.write bytes = (result, w')) :
    Wrote (BufferedWriter.accepted result bytes) w w' ∧ w'.inner.answers.length ≤ w.inner.answers.length ∧
      (result = .error .interrupted → w'.inner.answers.length < w.inner.answers.length) := by
  unfold write at h
  split at h
  · next n inner hwrite =>
    cases h
    obtain ⟨htaken, hle, hlt⟩ := BufferedWriter.write_spec hwrite
    exact ⟨⟨htaken, rfl⟩, hle, hlt⟩
  · next e inner hwrite =>
    cases h
    obtain ⟨htaken, hle, hlt⟩ := BufferedWriter.write_spec hwrite
    exact ⟨⟨htaken, (List.append_nil _).symm⟩, hle, hlt⟩

end Write

/-- Writes until all is accepted. Interrupted writes are made again. -/
def writeAll (w : HashingWriter β) (bytes : List β) : Except WriteError Unit × HashingWriter β :=
  match bytes with
  | [] => (.ok (), w)
  | b :: rest =>
    match _h : w.write (b :: rest) with
    | (.ok 0, w) => (.error .writeZero, w)
    | (.ok (n + 1), w) => writeAll w (rest.drop n)
    | (.error .interrupted, w) => writeAll w (b :: rest)
    | (.error e, w) => (.error e, w)
termination_by bytes.length + w.inner.answers.length
decreasing_by
  · have hle := (write_spec ‹_›).2.1
    simp only [List.length_drop, List.length_cons]
    omega
  · have hlt := (write_spec ‹_›).2.2 rfl
    omega

theorem writeAll_ok {w w' : HashingWriter β} {bytes : List β} (h : w.writeAll bytes = (.ok (), w')) :
    Wrote bytes w w' := by
  fun_induction writeAll w bytes with
  | case1 =>
    cases h
    exact Wrote.refl _
  | case2 => cases h
  | case3 w b rest n v hwrite ih =>
    have hfirst := (write_spec hwrite).1
    have hrest := hfirst.trans (ih h)
    rwa [BufferedWriter.accepted, List.take_succ_cons, List.cons_append, List.take_append_drop] at hrest
  | case4 w b rest v hwrite ih =>
    have hfirst := (write_spec hwrite).1
    exact hfirst.trans (ih h)
  | case5 => cases h

theorem flush_ok {w w' : HashingWriter β} (h : w.flush = (.ok (), w')) :
    w'.hashed = w.hashed ∧ w'.inner.device = w.inner.taken := by
  obtain ⟨hresult, rfl⟩ := Prod.mk.inj h
  have htaken := BufferedWriter.flushLoop_taken w.inner.capacity w.inner.answers w.inner.device w.inner.buffer
  have hempty := (BufferedWriter.flushLoop_ok (Prod.ext hresult rfl)).1
  rw [BufferedWriter.taken, hempty, List.append_nil] at htaken
  exact ⟨rfl, htaken⟩

end HashingWriter

end CorpusFeed

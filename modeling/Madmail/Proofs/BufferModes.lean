import Madmail.Framework.Buffer

namespace Madmail.Proofs.BufferModes
open Framework Reader List

variable {α : Type}

theorem fill_flatten {chunks : List (List α)} :
    (fill chunks k).1 = chunks.flatten.take k ∧ (fill chunks k).2.flatten = chunks.flatten.drop k := by
  fun_induction fill chunks k with
  | case1 => simp
  | case2 => simp
  | case3 chunk chunks k hfits read rest heq ih =>
    obtain ⟨hread,hrest⟩ := heq ▸ ih
    simp only [flatten_cons,take_append,drop_append,
      take_of_length_le hfits,drop_of_length_le hfits]
    exact ⟨congrArg _ hread,hrest⟩
  | case4 chunk chunks k hlong =>
    have hle : k + 1 ≤ chunk.length := by omega
    simp only [flatten_cons,take_append_of_le_length hle,
      drop_append_of_le_length hle]
    simp

theorem drain_eq (err : ReadErr) (chunks : List (List α)) (read : List α) :
    drain err chunks read = (read ++ chunks.flatten,if err = .eof then none else some err) := by
  induction chunks generalizing read with
  | nil => simp [drain]
  | cons chunk chunks ih => simp [drain,ih]

theorem readAll_eq (r : Reader α) : r.readAll = (r.bytes,if r.err = .eof then none else some r.err) :=
  drain_eq r.err r.chunks []

theorem bufferInMemory_eq (r : Reader α) :
    bufferInMemory r = if r.err = .eof then .ok (.memory r.bytes) else .error (.read r.err) := by
  rw [bufferInMemory,readAll_eq]
  by_cases hend : r.err = .eof <;> simp [hend]

theorem bufferInFile_eq :
    bufferInFile r =
      if r.err = .eof then .ok (.file r.bytes) else .error (.failedToWriteFile r.err) := by
  rw [bufferInFile,readAll_eq]
  by_cases hend : r.err = .eof <;> simp [hend]

theorem autoBufferMode_long {maxSize : Nat} (h : maxSize ≤ r.bytes.length) :
    autoBufferMode maxSize r =
      if r.err = .eof then .ok (.file r.bytes) else .error (.failedToWriteFile r.err) := by
  obtain ⟨hread,hrest⟩ := fill_flatten
  have hlength : (fill r.chunks maxSize).1.length = maxSize := by
    rw [hread,length_take]
    exact Nat.min_eq_left h
  have hwhole : (fill r.chunks maxSize).1 ++ (fill r.chunks maxSize).2.flatten = r.bytes := by
    rw [hread,hrest]
    exact take_append_drop maxSize r.chunks.flatten
  simp only [autoBufferMode,readFull,hlength,Nat.le_refl,if_true,Nat.lt_irrefl,if_false]
  rw [bufferInFile_eq]
  simp [multiReader,bytes,hwhole]

theorem autoBufferMode_short (h : r.bytes.length < maxSize) :
    autoBufferMode maxSize r =
      match r.err with
      | .eof | .unexpectedEOF => .ok (.memory r.bytes)
      | .other err => .error (.read (.other err)) := by
  have hread : (fill r.chunks maxSize).1 = r.bytes := by
    rw [fill_flatten.1]
    exact take_of_length_le (Nat.le_of_lt h)
  have hnot : ¬ maxSize ≤ r.bytes.length := by omega
  simp only [autoBufferMode,readFull,hread,hnot,if_false]
  cases r.err with
  | eof =>
    by_cases hempty : 0 < r.bytes.length
    · simp [hempty]
    · have hnil : r.bytes = [] := eq_nil_of_length_eq_zero (by omega)
      simp [hnil]
  | unexpectedEOF => simp
  | other err => simp

/-- Both ways to buffer a message take the same messages, and to the same octets. -/
structure Faithful (maxSize : Nat) (r : Reader α) : Prop where
  succeeds : (∃ b, autoBufferMode maxSize r = .ok b) ↔ ∃ b, bufferInMemory r = .ok b
  same : ∀ b b', autoBufferMode maxSize r = .ok b → bufferInMemory r = .ok b' → b.bytes = b'.bytes

theorem faithful_of_ok (h : autoBufferMode maxSize r = .ok b) (h' : bufferInMemory r = .ok b')
    (hsame : b.bytes = b'.bytes) : Faithful maxSize r := by
  refine ⟨iff_of_true ⟨b,h⟩ ⟨b',h'⟩,fun c c' hc hc' => ?_⟩
  cases h.symm.trans hc
  cases h'.symm.trans hc'
  exact hsame

theorem faithful_of_error (h : autoBufferMode maxSize r = .error e)
    (h' : bufferInMemory r = .error e') : Faithful maxSize r := by
  refine ⟨iff_of_false ?_ ?_,fun c _ hc => ?_⟩
  · rintro ⟨b,hb⟩
    cases h.symm.trans hb
  · rintro ⟨b,hb⟩
    cases h'.symm.trans hb
  · cases h.symm.trans hc

/-- `autoBufferMode` is faithful except to a message that is shorter than its first buffer and ends
with the reader's own `io.ErrUnexpectedEOF`. -/
theorem autoBufferMode_faithful_iff (maxSize : Nat) (r : Reader α) :
    Faithful maxSize r ↔ (r.err = .unexpectedEOF → maxSize ≤ r.bytes.length) := by
  have hmem := bufferInMemory_eq r
  by_cases hlong : maxSize ≤ r.bytes.length
  · have hauto := autoBufferMode_long hlong
    refine iff_of_true ?_ fun _ => hlong
    by_cases hend : r.err = .eof
    · rw [if_pos hend] at hauto hmem
      exact faithful_of_ok hauto hmem rfl
    · rw [if_neg hend] at hauto hmem
      exact faithful_of_error hauto hmem
  · have hauto := autoBufferMode_short (Nat.lt_of_not_le hlong)
    cases hend : r.err with
    | eof =>
      rw [hend] at hauto hmem
      exact iff_of_true (faithful_of_ok hauto hmem rfl) nofun
    | unexpectedEOF =>
      rw [hend] at hauto hmem
      refine iff_of_false (fun hf => ?_) fun h => hlong (h rfl)
      obtain ⟨b,hb⟩ := hf.succeeds.mp ⟨_,hauto⟩
      cases hmem.symm.trans hb
    | other err =>
      rw [hend] at hauto hmem
      exact iff_of_true (faithful_of_error hauto hmem) nofun

/-- A connection that is lost in the middle of a short message: the SMTP library ends such a message
with `io.ErrUnexpectedEOF`. -/
theorem lost_connection_accepted :
    let r : Reader Char := ⟨[['H','e','l']],.unexpectedEOF⟩
    autoBufferMode 1024 r = .ok (.memory ['H','e','l']) ∧
      bufferInMemory r = .error (.read .unexpectedEOF) :=
  ⟨rfl,rfl⟩

end Madmail.Proofs.BufferModes

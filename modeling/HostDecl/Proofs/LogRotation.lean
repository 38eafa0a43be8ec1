import HostDecl.Proofs.LogFolder
import HostDecl.Proofs.LogLine
import Mathlib.Algebra.Order.Field.Rat
import Mathlib.Data.List.Induction
import Mathlib.Tactic.Linarith

/-!
# Rotation of the log

Channels are written one after the other to a log that was not there. `written` is what calls write, `W`
of the law when taken over all of them.

**The law** (`Disk.rotation_drops_front`). After each call, the log set aside and the log are the end of
`W`, in this order, and both begin where a call begins: the calls are those that are dropped, those that
were set aside, and those in the log, and the last call is among these. The log is set aside exactly when
it was larger than its limit in front of the call; what is dropped then is the log set aside before, and
nothing else. Otherwise the log only grows at its end.

One call is one step of `Generations`, which names the three parts. That a log set aside has exceeded the
limit is part of it: without that, a log that happens to equal the one set aside before would look as if
it had been moved.
-/

namespace HostDecl

namespace Disk

/-! ## Calls -/

/-- The disk after the channels are written one after the other. -/
def writeAll (d : Disk) (base : Path) (calls : List Channel) : Disk :=
  calls.foldl (fun d c => (c.persist d base).disk) d

/-- What calls write: the lines of each channel, up to one that cannot be written. -/
def written (calls : List Channel) : ByteArray :=
  (String.join (calls.flatMap fun c => linesOf c.entries)).toUTF8

/-- What a file holds; nothing if it is not there. -/
def content (d : Disk) (p : Path) : ByteArray :=
  match d.readBytes p with
  | .ok bytes => bytes
  | .error _ => .empty

theorem fileSize_eq (d : Disk) (p : Path) : d.fileSize p = (d.content p).size := by
  rw [fileSize, content]
  cases d.readBytes p <;> rfl

/-- From one disk to the next, the log was set aside. -/
def SetAsideBy (before after : Disk) (base : Path) : Prop :=
  ∃ held, before.readBytes (logFile base) = .ok held ∧ after.readBytes (logBackup base) = .ok held

theorem writeAll_concat (d : Disk) (base : Path) (calls : List Channel) (c : Channel) :
    d.writeAll base (calls ++ [c]) = (c.persist (d.writeAll base calls) base).disk := by
  rw [writeAll, List.foldl_append]
  rfl

theorem written_nil : written [] = .empty := by
  rw [written, List.flatMap_nil, String.join_nil, String.toUTF8_eq_toByteArray,
    String.toByteArray_empty]

theorem toUTF8_join_append (front behind : List String) :
    (String.join (front ++ behind)).toUTF8 =
      (String.join front).toUTF8 ++ (String.join behind).toUTF8 := by
  rw [String.join_append, String.toUTF8_eq_toByteArray, String.toByteArray_append]
  rfl

theorem written_append (front behind : List Channel) :
    written (front ++ behind) = written front ++ written behind := by
  rw [written, List.flatMap_append, toUTF8_join_append]
  rfl

theorem written_singleton (c : Channel) : written [c] = (String.join (linesOf c.entries)).toUTF8 := by
  rw [written, List.flatMap_singleton]

/-! ## What the files hold -/

section

variable {d e : Disk} {base : Path} {current aside newCurrent : Option ByteArray}

theorem HasLog.content_file (has : HasLog d base current aside) :
    d.content (logFile base) = current.getD .empty := by
  rw [content, has.readBytes_file]
  cases current <;> rfl

theorem HasLog.content_backup (has : HasLog d base current aside) :
    d.content (logBackup base) = aside.getD .empty := by
  rw [content, has.readBytes_backup]
  cases aside <;> rfl

/-- What is set aside was too large, now as before. -/
theorem large_setAside (large : ∀ bytes, aside = some bytes → logSizeLimit < bytes.size) :
    ∀ bytes, setAside current aside = some bytes → logSizeLimit < bytes.size := by
  intro bytes held
  by_cases exceeds : logSizeLimit < contentSize current
  · rw [setAside, if_pos exceeds] at held
    rwa [held] at exceeds
  · rw [setAside, if_neg exceeds] at held
    exact large bytes held

/-- The log is seen to be set aside when it is too large, and only then. -/
theorem HasLog.setAsideBy_iff (before : HasLog d base current aside)
    (after : HasLog e base newCurrent (setAside current aside))
    (large : ∀ bytes, aside = some bytes → logSizeLimit < bytes.size) :
    SetAsideBy d e base ↔ logSizeLimit < contentSize current := by
  rw [SetAsideBy, before.readBytes_file, after.readBytes_backup]
  constructor
  · rintro ⟨held, read, moved⟩
    cases current with
    | none => cases read
    | some bytes =>
      cases read
      by_contra small
      rw [setAside, if_neg small] at moved
      cases aside with
      | none => cases moved
      | some old =>
        cases moved
        exact small (large _ rfl)
  · intro exceeds
    cases current with
    | none => exact absurd exceeds (by decide)
    | some bytes =>
      rw [setAside, if_pos exceeds]
      exact ⟨bytes, rfl, rfl⟩

end

/-! ## One call and all calls -/

/-- The calls are those that were dropped, those that were set aside and those in the log. -/
structure Generations (d : Disk) (base : Path) (calls : List Channel)
    (current aside : Option ByteArray) : Prop where
  has : HasLog d base current aside
  parts : ∃ dropped kept recent, calls = dropped ++ kept ++ recent ∧
    aside.getD .empty = written kept ∧ current.getD .empty = written recent
  large : ∀ bytes, aside = some bytes → logSizeLimit < bytes.size

variable {d : Disk} {base : Path} {calls : List Channel} {current aside : Option ByteArray}

/-- A call comes last in the last generation, or begins a new one in front of which one more is
dropped. -/
theorem Generations.parts_persist (gens : Generations d base calls current aside) (c : Channel) :
    ∃ dropped kept recent, calls ++ [c] = dropped ++ kept ++ (recent ++ [c]) ∧
      (setAside current aside).getD .empty = written kept ∧
      grown current (written [c]) = written (recent ++ [c]) := by
  obtain ⟨dropped, kept, recent, rfl, asideEq, currentEq⟩ := gens.parts
  by_cases exceeds : logSizeLimit < contentSize current
  · refine ⟨dropped ++ kept, recent, [], rfl, ?_, ?_⟩
    · rw [setAside, if_pos exceeds, currentEq]
    · rw [grown, keptLog, if_pos exceeds, Option.getD_none, ByteArray.empty_append, List.nil_append]
  · refine ⟨dropped, kept, recent, by rw [List.append_assoc], ?_, ?_⟩
    · rw [setAside, if_neg exceeds, asideEq]
    · rw [grown, keptLog, if_neg exceeds, currentEq, written_append]

/-- **One call** leaves generations again. -/
theorem Generations.persist (gens : Generations d base calls current aside) {c : Channel}
    (some_entry : c.entries ≠ []) :
    Generations (c.persist d base).disk base (calls ++ [c]) (some (grown current (written [c])))
      (setAside current aside) := by
  have has := (gens.has.persist some_entry).1
  rw [← written_singleton] at has
  obtain ⟨dropped, kept, recent, split, asideEq, currentEq⟩ := gens.parts_persist c
  exact ⟨has, ⟨dropped, kept, recent ++ [c], split, asideEq, currentEq⟩, large_setAside gens.large⟩

theorem generations_nil (has : HasLog d base none none) : Generations d base [] none none :=
  ⟨has, ⟨[], [], [], rfl, written_nil.symm, written_nil.symm⟩, fun _ held => nomatch held⟩

/-- **All calls**, one after the other. -/
theorem generations_writeAll (has : HasLog d base none none)
    (some_entry : ∀ c ∈ calls, c.entries ≠ []) :
    ∃ current aside, Generations (d.writeAll base calls) base calls current aside := by
  induction calls using List.reverseRecOn with
  | nil => exact ⟨none, none, generations_nil has⟩
  | append_singleton calls c ih =>
    rw [List.forall_mem_append, List.forall_mem_singleton] at some_entry
    obtain ⟨current, aside, gens⟩ := ih some_entry.1
    rw [writeAll_concat]
    exact ⟨_, _, gens.persist some_entry.2⟩

/-- What one call does to the two files. -/
theorem Generations.content_persist (gens : Generations d base calls current aside) {c : Channel}
    (some_entry : c.entries ≠ []) :
    let after := (c.persist d base).disk
    (SetAsideBy d after base ↔ logSizeLimit < d.fileSize (logFile base)) ∧
      (d.fileSize (logFile base) ≤ logSizeLimit →
        after.content (logBackup base) = d.content (logBackup base) ∧
          after.content (logFile base) = d.content (logFile base) ++ written [c]) ∧
      (logSizeLimit < d.fileSize (logFile base) →
        after.content (logBackup base) = d.content (logFile base) ∧
          after.content (logFile base) = written [c]) := by
  intro after
  have next := gens.persist some_entry
  rw [gens.has.fileSize, gens.has.content_file, gens.has.content_backup, next.has.content_file,
    next.has.content_backup, Option.getD_some]
  refine ⟨gens.has.setAsideBy_iff next.has gens.large, fun small => ?_, fun exceeds => ?_⟩
  · rw [setAside, grown, keptLog, if_neg (Nat.not_lt.mpr small), if_neg (Nat.not_lt.mpr small)]
    exact ⟨rfl, rfl⟩
  · rw [setAside, grown, keptLog, if_pos exceeds, if_pos exceeds, Option.getD_none,
      ByteArray.empty_append]
    exact ⟨rfl, rfl⟩

/-! ## Sizes -/

/-- That a log has more than ten mebibytes is the same as that it has more bytes than they are, also where
the quotient is rounded: rounding keeps the order, and keeps the quotients of small sizes as they are. -/
theorem lt_roundedMebibytes_iff {round : ℚ → ℚ} (mono : Monotone round)
    (small : ∀ size ≤ logSizeLimit + 1, round (size / (1024 * 1024)) = size / (1024 * 1024)) (size : Nat) :
    10 < round (size / (1024 * 1024)) ↔ logSizeLimit < size := by
  have mebibyte : (0 : ℚ) < 1024 * 1024 := by norm_num
  have limit : ((logSizeLimit : Nat) : ℚ) = 10 * (1024 * 1024) := by norm_num [logSizeLimit]
  have order : ∀ m n : Nat, m ≤ n → round (m / (1024 * 1024)) ≤ round (n / (1024 * 1024)) :=
    fun m n le => mono (div_le_div_of_nonneg_right (Nat.cast_le.mpr le) mebibyte.le)
  constructor
  · intro large
    by_contra within
    have below := order size logSizeLimit (Nat.le_of_not_lt within)
    rw [small logSizeLimit (Nat.le_succ _), limit, mul_div_cancel_right₀ _ mebibyte.ne'] at below
    exact absurd large (not_lt_of_ge below)
  · intro beyond
    have above := order (logSizeLimit + 1) size beyond
    rw [small (logSizeLimit + 1) le_rfl] at above
    refine lt_of_lt_of_le ?_ above
    rw [lt_div_iff₀ mebibyte, ← limit, Nat.cast_lt]
    exact Nat.lt_succ_self _

/-- The log is at most one call larger than its limit. -/
theorem size_grown_le (current : Option ByteArray) (bytes : ByteArray) :
    (grown current bytes).size ≤ logSizeLimit + bytes.size := by
  have kept : contentSize (keptLog current) ≤ logSizeLimit := by
    rw [keptLog]
    split
    · exact Nat.zero_le _
    · next small => exact Nat.le_of_not_lt small
  rw [grown, ByteArray.size_append]
  exact Nat.add_le_add_right kept _

/-- A call with one diagnostic. -/
def callOf (detail : String) : Channel := ⟨true, [⟨"2024-01-02T03:04:05", Report.unmappedType, detail⟩]⟩

/-- A detail of a given length. -/
def longDetail (n : Nat) : String := String.ofList (List.replicate n 'a')

theorem length_le_utf8ByteSize (cs : List Char) : cs.length ≤ (String.ofList cs).utf8ByteSize := by
  induction cs with
  | nil => exact Nat.zero_le _
  | cons c cs ih =>
    have first : 0 < c.utf8Size := c.utf8Size_pos
    rw [String.ofList_cons, String.utf8ByteSize_append, String.utf8ByteSize_singleton,
      List.length_cons]
    omega

/-- A call is larger than its detail. -/
theorem length_lt_written (detail : String) :
    detail.toList.length < (written [callOf detail]).size := by
  have bound := length_le_utf8ByteSize
    (lineChars "2024-01-02T03:04:05".toList Report.unmappedType.toList detail.toList ++ ['\n'])
  rw [List.length_append, lineChars, List.length_append, List.length_append, List.length_append,
    List.length_append, List.length_singleton] at bound
  rw [written_singleton, callOf, linesOf_cons_string, String.toUTF8_eq_toByteArray,
    String.size_toByteArray, String.join_cons, String.utf8ByteSize_append, lineChars]
  omega

/-- A call that is too large for the log: its detail is as long as the limit. -/
def largeCall : Channel := callOf (longDetail logSizeLimit)

theorem logSizeLimit_lt_written : logSizeLimit < (written [largeCall]).size := by
  have length : ∀ n, (longDetail n).toList.length = n := by
    intro n
    rw [longDetail, String.toList_ofList, List.length_replicate]
  have larger := length_lt_written (longDetail logSizeLimit)
  rwa [length] at larger

/-! ## The law -/

/-- **Rotation drops the front of the log only**: after any call the two files hold the end of all that
was written, from the beginning of a call on. -/
theorem rotation_drops_front (has : HasLog d base none none) (calls : List Channel) (last : Channel)
    (some_entry : ∀ c ∈ calls ++ [last], c.entries ≠ []) :
    let before := d.writeAll base calls
    let after := d.writeAll base (calls ++ [last])
    (∃ dropped kept recent : List Channel, calls ++ [last] = dropped ++ kept ++ (recent ++ [last]) ∧
      after.content (logBackup base) = written kept ∧
      after.readBytes (logFile base) = .ok (written (recent ++ [last])) ∧
      written (calls ++ [last]) = written dropped ++
        (after.content (logBackup base) ++ after.content (logFile base))) ∧
    (SetAsideBy before after base ↔ logSizeLimit < before.fileSize (logFile base)) ∧
    (before.fileSize (logFile base) ≤ logSizeLimit →
      after.content (logBackup base) = before.content (logBackup base) ∧
      after.content (logFile base) = before.content (logFile base) ++ written [last]) ∧
    (logSizeLimit < before.fileSize (logFile base) →
      after.content (logBackup base) = before.content (logFile base) ∧
      after.content (logFile base) = written [last]) ∧
    (after.content (logFile base)).size ≤ logSizeLimit + (written [last]).size := by
  intro before after
  rw [List.forall_mem_append, List.forall_mem_singleton] at some_entry
  obtain ⟨current, aside, gens⟩ := generations_writeAll has some_entry.1
  have afterEq : after = (last.persist before base).disk := writeAll_concat d base calls last
  have next := gens.persist some_entry.2
  obtain ⟨aside_iff, grows, begins⟩ := gens.content_persist some_entry.2
  rw [← afterEq] at next aside_iff grows begins
  refine ⟨?_, aside_iff, grows, begins, ?_⟩
  · obtain ⟨dropped, kept, recent, split, asideEq, currentEq⟩ := gens.parts_persist last
    refine ⟨dropped, kept, recent, split, ?_, ?_, ?_⟩
    · rw [next.has.content_backup, asideEq]
    · rw [next.has.readBytes_file, Option.elim_some, currentEq]
    · rw [next.has.content_backup, next.has.content_file, Option.getD_some, asideEq, currentEq,
        split, List.append_assoc, written_append dropped, written_append kept]
  · rw [next.has.content_file, Option.getD_some]
    exact size_grown_le current (written [last])

/-- A large call is set aside by the next one. -/
theorem rotation_drops_front_largeCall :
    let before := bare.writeAll .here [largeCall]
    let after := bare.writeAll .here [largeCall, callOf "short"]
    HasLog bare .here none none ∧
      (∀ c ∈ [largeCall, callOf "short"], c.entries ≠ []) ∧
      SetAsideBy before after .here ∧
      after.content (logBackup .here) = written [largeCall] ∧
      after.content (logFile .here) = written [callOf "short"] := by
  intro before after
  have some_entry : ∀ detail, (callOf detail).entries ≠ [] := fun _ => List.cons_ne_nil _ _
  have both : ∀ c ∈ [largeCall] ++ [callOf "short"], c.entries ≠ [] := by
    intro c mem
    rcases List.mem_cons.mp mem with rfl | last
    · exact some_entry _
    · cases List.mem_singleton.mp last
      exact some_entry _
  have law := rotation_drops_front hasLog_bare [largeCall] (callOf "short") both
  have first := rotation_drops_front hasLog_bare [] largeCall
    (List.forall_mem_singleton.mpr (some_entry _))
  have held : before.content (logFile .here) = written [largeCall] := by
    have grows := (first.2.2.1 (by decide)).2
    rwa [show bare.writeAll .here [] = bare from rfl, hasLog_bare.content_file, Option.getD_none,
      ByteArray.empty_append] at grows
  have exceeds : logSizeLimit < before.fileSize (logFile .here) := by
    rw [fileSize_eq, held]
    exact logSizeLimit_lt_written
  obtain ⟨aside, file⟩ := law.2.2.2.1 exceeds
  exact ⟨hasLog_bare, both, law.2.1.mpr exceeds, aside.trans held, file⟩

end Disk

end HostDecl

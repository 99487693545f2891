import ByteTape.Device.Stream
import ByteTape.Proofs.Resumption
import ByteTape.Proofs.StraightText
import Mathlib.Data.List.Forall2

set_option autoImplicit false

namespace ByteTape

namespace Stream

/-- The value is that of a byte. -/
def IsByte (value : Int) : Prop :=
  0 ≤ value ∧ value < 256
  deriving Decidable

/-- How a value is answered: a byte is written by itself and flushed, and anything else is refused.
-/
inductive Answers : Int → Except NotAByte (List StreamCall) → Prop
  | taken (b : UInt8) : Answers b.toNat (.ok [.write b, .flush])
  | refused {value : Int} (noByte : ¬IsByte value) : Answers value (.error ⟨value⟩)

def singly (written : List UInt8) : List StreamCall :=
  written.flatMap fun b => [.write b, .flush]

/-- What becomes of values that are sent to a stream one by one. -/
structure Takes (s : Stream) (values : List Int) (written : List UInt8) : Prop where
  /-- The bytes are the values that are bytes, in their order. -/
  among : written.map (fun b => (b.toNat : Int)) = values.filter (IsByte ·)
  calls : (s.sendAll values).1.calls.toList = s.calls.toList ++ singly written
  bytes : (s.sendAll values).1.bytes.toList = s.bytes.toList ++ written
  replies : List.Forall₂ Answers values (s.sendAll values).2

section Sending

variable {s : Stream} {value : Int} {values : List Int} {written : List UInt8} {b : UInt8}

theorem isByte_toNat (b : UInt8) : IsByte b.toNat :=
  ⟨Int.natCast_nonneg _, Int.ofNat_lt.2 b.toNat_lt⟩

theorem IsByte.eq_toNat (isByte : IsByte value) : ∃ b : UInt8, value = b.toNat :=
  ⟨UInt8.ofInt value, by rw [toNat_ofInt, Int.emod_eq_of_lt isByte.1 isByte.2]⟩

theorem send_toNat (s : Stream) (b : UInt8) :
    s.send b.toNat = (⟨s.calls ++ singly [b]⟩, .ok (singly [b])) := by
  have isByte := isByte_toNat b
  have same : UInt8.ofInt b.toNat = b := by
    rw [← UInt8.toNat_inj, ← Int.ofNat_inj, toNat_ofInt, Int.emod_eq_of_lt isByte.1 isByte.2]
  rw [send_of_byte s isByte, same]
  rfl

theorem sendAll_cons (s : Stream) (value : Int) (rest : List Int) :
    s.sendAll (value :: rest) =
      (((s.send value).1.sendAll rest).1, (s.send value).2 :: ((s.send value).1.sendAll rest).2) :=
  rfl

theorem sendAll_append (s : Stream) (front back : List Int) :
    s.sendAll (front ++ back) =
      (((s.sendAll front).1.sendAll back).1,
        (s.sendAll front).2 ++ ((s.sendAll front).1.sendAll back).2) := by
  induction front generalizing s with
  | nil => rfl
  | cons value rest ih => rw [List.cons_append, sendAll_cons, ih, sendAll_cons, List.cons_append]

theorem bytes_of_calls_eq {next : Stream}
    (added : next.calls.toList = s.calls.toList ++ singly written) :
    next.bytes.toList = s.bytes.toList ++ written := by
  rw [bytes, bytes, Array.toList_filterMap, Array.toList_filterMap, added, List.filterMap_append,
    List.append_right_inj, singly, List.filterMap_flatMap]
  exact List.flatMap_singleton' written

theorem Takes.cons_byte (takes : (s.send b.toNat).1.Takes values written) :
    s.Takes (b.toNat :: values) (b :: written) := by
  have calls : (s.sendAll (b.toNat :: values)).1.calls.toList =
      s.calls.toList ++ singly (b :: written) := by
    rw [sendAll_cons, takes.calls, send_toNat, Array.toList_appendList, List.append_assoc]
    rfl
  refine ⟨?_, calls, bytes_of_calls_eq calls, ?_⟩
  · rw [List.map_cons, takes.among, List.filter_cons_of_pos (by simpa using isByte_toNat b)]
  · have taken : Answers b.toNat (s.send b.toNat).2 := by
      rw [send_toNat]
      exact .taken b
    rw [sendAll_cons]
    exact .cons taken takes.replies

theorem Takes.cons_refused (noByte : ¬IsByte value) (takes : s.Takes values written) :
    s.Takes (value :: values) written := by
  have after : s.sendAll (value :: values) =
      ((s.sendAll values).1, .error ⟨value⟩ :: (s.sendAll values).2) := by
    rw [sendAll_cons, send_of_no_byte s noByte]
  refine ⟨?_, ?_, ?_, ?_⟩
  · rw [takes.among, List.filter_cons_of_neg (by simpa using noByte)]
  · rw [after, takes.calls]
  · rw [after, takes.bytes]
  · rw [after]
    exact .cons (.refused noByte) takes.replies

theorem exists_takes (s : Stream) (values : List Int) : ∃ written, s.Takes values written := by
  induction values generalizing s with
  | nil => exact ⟨[], rfl, (List.append_nil _).symm, (List.append_nil _).symm, .nil⟩
  | cons value rest ih =>
    by_cases isByte : IsByte value
    · obtain ⟨b, rfl⟩ := isByte.eq_toNat
      obtain ⟨written, takes⟩ := ih (s.send b.toNat).1
      exact ⟨b :: written, takes.cons_byte⟩
    · obtain ⟨written, takes⟩ := ih s
      exact ⟨written, takes.cons_refused isByte⟩

end Sending

end Stream

namespace Source

variable {s : Source} {bytes : List UInt8}

theorem Holds.take (holds : s.Holds bytes) (n : Nat) : (s.take n).1 =
    (List.range n).map fun j =>
      if h : j < bytes.length then .value bytes[j].toNat else .endOfInput := by
  rw [take_fst]
  apply List.map_congr_left
  intro j _
  rw [holds j]
  split
  · next left => rw [List.getElem?_eq_getElem left, Option.map_some, Option.getD_some]
  · next past =>
    rw [List.getElem?_eq_none (Nat.le_of_not_lt past), Option.map_none, Option.getD_none]

/-- A source gives the bytes that it holds, and then the end of the input for ever. -/
theorem Holds.take_past (holds : s.Holds bytes) (m : Nat) : (s.take (bytes.length + m)).1 =
    bytes.map (fun b => .value b.toNat) ++ List.replicate m .endOfInput := by
  rw [holds.take, List.range_add, List.map_append, List.map_map]
  congr 1
  · apply List.ext_getElem
    · rw [List.length_map, List.length_map, List.length_range]
    · intro j _ left
      have left : j < bytes.length := by rwa [List.length_map] at left
      simp only [List.getElem_map, List.getElem_range, dif_pos left]
  · rw [List.eq_replicate_iff]
    refine ⟨by rw [List.length_map, List.length_range], ?_⟩
    intro reading given
    obtain ⟨j, -, rfl⟩ := List.mem_map.1 given
    exact dif_neg (Nat.not_lt.2 (Nat.le_add_right _ _))

end Source

/-- Of the values that are sent to a stream one by one, it takes those that are bytes, in their
order, each written by itself and then flushed. It refuses the others, and all else is as if these
had not been sent. A source gives the bytes that it holds one by one, and each time after that the
end of the input. So what is read from a stream after the sending is what it had before, the values
that it took, in their order, and nothing else. -/
theorem taken_values_read_back :
    (∀ (s : Stream) (values : List Int), ∃ written, s.Takes values written) ∧
    (∀ (s : Stream) (front back : List Int) (value : Int), ¬Stream.IsByte value →
      s.send value = (s, .error ⟨value⟩) ∧
      (s.sendAll (front ++ value :: back)).1 = (s.sendAll (front ++ back)).1 ∧
      (s.sendAll (front ++ back)).2 =
        (s.sendAll front).2 ++ ((s.sendAll front).1.sendAll back).2 ∧
      (s.sendAll (front ++ value :: back)).2 =
        (s.sendAll front).2 ++ .error ⟨value⟩ :: ((s.sendAll front).1.sendAll back).2) ∧
    (∀ (bytes : Array UInt8) (n : Nat), ((Source.ofBytes bytes).take n).1 =
      (List.range n).map fun j =>
        if h : j < bytes.size then .value bytes[j].toNat else .endOfInput) ∧
    ∀ (s : Stream) (values : List Int) (m : Nat),
      let taken := values.filter (Stream.IsByte ·)
      ((Source.ofBytes (s.sendAll values).1.bytes).take (s.bytes.size + taken.length + m)).1 =
        s.bytes.toList.map (fun b => .value b.toNat) ++ taken.map .value ++
          List.replicate m .endOfInput := by
  refine ⟨Stream.exists_takes, ?_, ?_, ?_⟩
  · intro s front back value noByte
    have refused (t : Stream) : t.send value = (t, .error ⟨value⟩) :=
      Stream.send_of_no_byte t noByte
    refine ⟨refused s, ?_, ?_, ?_⟩
    · rw [Stream.sendAll_append, Stream.sendAll_append, Stream.sendAll_cons, refused]
    · rw [Stream.sendAll_append]
    · rw [Stream.sendAll_append, Stream.sendAll_cons, refused]
  · intro bytes n
    exact (Source.holds_ofBytes bytes.toList).take n
  · intro s values m taken
    obtain ⟨written, takes⟩ := Stream.exists_takes s values
    have among : written.map (fun b => (b.toNat : Int)) = taken := takes.among
    have holds : (Source.ofBytes (s.sendAll values).1.bytes).Holds (s.bytes.toList ++ written) := by
      rw [← takes.bytes]
      exact Source.holds_ofBytes _
    have readBack := holds.take_past m
    rw [List.length_append, Array.length_toList, List.map_append] at readBack
    rw [← among, List.length_map, List.map_map]
    exact readBack

theorem taken_values_read_back_refusing :
    ¬Stream.IsByte 256 ∧ ¬Stream.IsByte (-1) ∧
      (({} : Stream).sendAll [65, 256, 0]).1 = (({} : Stream).sendAll [65, 0]).1 ∧
      ((Source.ofBytes (({} : Stream).sendAll [65, 256, 0, -1]).1.bytes).take 4).1 =
        [.value 65, .value 0, .endOfInput, .endOfInput] := by
  have noByte : ¬Stream.IsByte 256 := by decide
  obtain ⟨-, refusal, -, readBack⟩ := taken_values_read_back
  exact ⟨noByte, by decide, (refusal {} [65] [0] 256 noByte).2.1, readBack {} [65, 256, 0, -1] 2⟩

end ByteTape

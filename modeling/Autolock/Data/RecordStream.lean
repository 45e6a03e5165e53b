import Autolock.Data.ByteMemory

namespace Autolock
namespace Data

/-!
# Records of varying length, one after the other

A writer encodes records and puts them next to each other.  A reader knows
where the first one starts and how many bytes there are; it finds the length of
a record in the record itself and walks from one to the next.  If it reads each
record as it was written, it visits exactly the records that were written.
-/

/-- What a writer and a reader of records have agreed upon. -/
structure RecordFormat (Record : Type) where
  /-- The records that can be written. -/
  Valid : Record -> Prop
  encode : Record -> List UInt8
  /-- The length that the reader finds at an address. -/
  sizeAt : ByteMemory -> Nat -> Nat
  readAt : ByteMemory -> Nat -> Record
  sizeAt_pos : forall mem p, 0 < sizeAt mem p
  sizeAt_eq : forall {mem p record}, Valid record -> mem.Holds p (encode record) ->
    sizeAt mem p = (encode record).length
  readAt_eq : forall {mem p record}, Valid record -> mem.Holds p (encode record) ->
    readAt mem p = record

namespace RecordFormat

variable {Record : Type} (format : RecordFormat Record)

def encodeAll (records : List Record) : List UInt8 :=
  records.flatMap format.encode

/-- Where records that are put next to each other start. -/
def starts : Nat -> List Record -> List Nat
  | _, [] => []
  | p, record :: records => p :: starts (p + (format.encode record).length) records

/-- Where the records start, if there are exactly so many bytes of them. -/
def walk (mem : ByteMemory) (p bytes : Nat) : Option (List Nat) :=
  if bytes = 0 then some []
  else if bytes < format.sizeAt mem p then none
  else (walk mem (p + format.sizeAt mem p) (bytes - format.sizeAt mem p)).map (p :: ·)
termination_by bytes
decreasing_by
  have := format.sizeAt_pos mem p
  omega

variable {format} {mem : ByteMemory} {p bytes : Nat}

@[simp] theorem encodeAll_nil : format.encodeAll [] = [] :=
  rfl

@[simp] theorem encodeAll_cons (record : Record) (records : List Record) :
    format.encodeAll (record :: records) = format.encode record ++ format.encodeAll records :=
  rfl

@[simp] theorem encodeAll_append (records more : List Record) :
    format.encodeAll (records ++ more) = format.encodeAll records ++ format.encodeAll more :=
  List.flatMap_append

@[simp] theorem encodeAll_singleton (record : Record) :
    format.encodeAll [record] = format.encode record := by
  simp [encodeAll]

theorem encodeAll_flatten (groups : List (List Record)) :
    format.encodeAll groups.flatten = (groups.map format.encodeAll).flatten := by
  induction groups with
  | nil => rfl
  | cons group groups inductionHypothesis =>
      rw [List.flatten_cons, encodeAll_append, inductionHypothesis, List.map_cons,
        List.flatten_cons]

@[simp] theorem walk_zero : format.walk mem p 0 = some [] := by
  rw [walk, if_pos rfl]

theorem walk_of_le (enough : format.sizeAt mem p ≤ bytes) :
    format.walk mem p bytes =
      (format.walk mem (p + format.sizeAt mem p) (bytes - format.sizeAt mem p)).map (p :: ·) := by
  have := format.sizeAt_pos mem p
  rw [walk, if_neg (by omega), if_neg (by omega)]

/-- A walk consumes exactly the bytes that it was told of. -/
theorem walk_consumes {starts : List Nat} (walked : format.walk mem p bytes = some starts) :
    (starts.map (format.sizeAt mem)).sum = bytes := by
  fun_induction format.walk mem p bytes generalizing starts with
  | case1 =>
      cases walked
      rfl
  | case2 => cases walked
  | case3 p bytes _ enough inductionHypothesis =>
      rcases Option.map_eq_some_iff.mp walked with ⟨rest, further, rfl⟩
      rw [List.map_cons, List.sum_cons, inductionHypothesis further]
      omega

@[simp] theorem starts_length (p : Nat) (records : List Record) :
    (format.starts p records).length = records.length := by
  induction records generalizing p with
  | nil => rfl
  | cons record records inductionHypothesis =>
      rw [starts, List.length_cons, inductionHypothesis, List.length_cons]

/-- The reader finds the starts of the records. -/
theorem walk_starts {records : List Record}
    (valid : forall record, record ∈ records -> format.Valid record)
    (holds : mem.Holds p (format.encodeAll records)) :
    format.walk mem p (format.encodeAll records).length = some (format.starts p records) := by
  induction records generalizing p with
  | nil => exact walk_zero
  | cons record records inductionHypothesis =>
      rw [List.forall_mem_cons] at valid
      rw [encodeAll_cons, ByteMemory.holds_append] at holds
      have size := format.sizeAt_eq valid.1 holds.1
      rw [encodeAll_cons, List.length_append, ← size, walk_of_le (Nat.le_add_right _ _),
        Nat.add_sub_cancel_left, size, inductionHypothesis valid.2 holds.2]
      rfl

/-- Each record is where it starts, and ends with the bytes of them all at the latest. -/
theorem holds_of_mem_starts {records : List Record}
    (holds : mem.Holds p (format.encodeAll records)) {x : Nat × Record}
    (member : x ∈ (format.starts p records).zip records) :
    mem.Holds x.1 (format.encode x.2) ∧
      x.1 + (format.encode x.2).length ≤ p + (format.encodeAll records).length := by
  induction records generalizing p with
  | nil => cases member
  | cons record records inductionHypothesis =>
      rw [encodeAll_cons, ByteMemory.holds_append] at holds
      rw [starts, List.zip_cons_cons, List.mem_cons] at member
      rw [encodeAll_cons, List.length_append]
      rcases member with rfl | later
      · exact ⟨holds.1, Nat.add_le_add_left (Nat.le_add_right _ _) p⟩
      · rcases inductionHypothesis holds.2 later with ⟨there, ends⟩
        exact ⟨there, by omega⟩

/-- The reader visits the records that were written, in their order. -/
theorem map_readAt_starts {records : List Record}
    (valid : forall record, record ∈ records -> format.Valid record)
    (holds : mem.Holds p (format.encodeAll records)) :
    (format.starts p records).map (format.readAt mem) = records := by
  induction records generalizing p with
  | nil => rfl
  | cons record records inductionHypothesis =>
      rw [List.forall_mem_cons] at valid
      rw [encodeAll_cons, ByteMemory.holds_append] at holds
      rw [starts, List.map_cons, format.readAt_eq valid.1 holds.1,
        inductionHypothesis valid.2 holds.2]

/-- If no record is shorter than a bound, the number of records is bounded. -/
theorem length_le_of_encode_le {records : List Record} {least : Nat}
    (long : forall record, record ∈ records -> least ≤ (format.encode record).length) :
    least * records.length ≤ (format.encodeAll records).length := by
  induction records with
  | nil => simp
  | cons record records inductionHypothesis =>
      rw [List.forall_mem_cons] at long
      have rest := inductionHypothesis long.2
      rw [encodeAll_cons, List.length_append, List.length_cons, Nat.mul_succ]
      omega

end RecordFormat

end Data
end Autolock

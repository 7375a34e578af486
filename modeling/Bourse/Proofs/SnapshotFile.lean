import Bourse.Proofs.PrettyReading
import Bourse.Store

/-!
# The snapshot file reads back

A snapshot file holds the pretty JSON text of a snapshot (`Snapshot.fileText`) and is read
back as a stream against `Snapshot.shape` (`Snapshot.ofText`). This file shows that the text
reads back as the very snapshot written, for every snapshot whose price maps are keyed in
ascending order, each price once (`Snapshot.Keyed`), as the maps of a book are: any words up
to `2 ^ 64 - 1` as prices, ids, sizes, timestamps and next id, any user ids, queues and
histories of any length.

* `readsPretty_order`: an order's object reads back as the record of its seven fields, its
  side and kind as the indices of their tags;
* `readsPretty_mapValue`: a price map reads back, its keys from their decimal text;
* `ofText_fileText`: the text of a keyed snapshot reads back as the snapshot;
* `load_of_save`: after a save succeeds, loading the file gives the snapshot saved.
-/

namespace Bourse

open Json Decode

namespace Side

/-- The position of a side's tag among the tags of `Side.shape`. -/
def index : Side → Nat
  | bid => 0
  | ask => 1

theorem indexOf_tag (s : Side) : indexOf ["bid", "ask"] s.tag = some s.index := by
  cases s <;> rfl

theorem ofIndex_index (s : Side) : ofIndex s.index = some s := by
  cases s <;> rfl

end Side

namespace Kind

/-- The position of a kind's tag among the tags of `Kind.shape`. -/
def index : Kind → Nat
  | limit => 0
  | market => 1
  | stop => 2

theorem indexOf_tag (k : Kind) : indexOf ["limit", "market", "stop"] k.tag = some k.index := by
  cases k <;> rfl

theorem ofIndex_index (k : Kind) : ofIndex k.index = some k := by
  cases k <;> rfl

end Kind

namespace Order

/-- The fields of an order on the wire: name, shape, written value and the datum it reads
back as. -/
def wireFields (o : Order) : List (String × Shape × Value × Datum) :=
  [("id", .word, .word o.id, .word o.id),
   ("side", Side.shape, o.side.toValue, .tag o.side.index),
   ("kind", Kind.shape, o.kind.toValue, .tag o.kind.index),
   ("size", .word, .word o.size, .word o.size),
   ("price", .word, .word o.price, .word o.price),
   ("user_id", .text, .string o.user, .text o.user),
   ("timestamp", .word, .word o.timestamp, .word o.timestamp)]

/-- The datum an order reads back as. -/
def datum (o : Order) : Datum := .record (o.wireFields.map (·.2.2.2))

theorem readsPretty_order (o : Order) : ReadsPretty Order.shape o.toValue o.datum := by
  have h : ∀ f ∈ o.wireFields, ReadsPretty f.2.1 f.2.2.1 f.2.2.2 := by
    simp only [wireFields, List.mem_cons, List.not_mem_nil, or_false]
    rintro f (rfl | rfl | rfl | rfl | rfl | rfl | rfl)
    · exact readsPretty_word o.id
    · exact readsPretty_tag o.side.indexOf_tag
    · exact readsPretty_tag o.kind.indexOf_tag
    · exact readsPretty_word o.size
    · exact readsPretty_word o.price
    · exact readsPretty_text o.user
    · exact readsPretty_word o.timestamp
  have hnames : (o.wireFields.map (·.1)).Nodup := by
    simp only [wireFields, List.map_cons, List.map_nil]
    decide
  exact readsPretty_record hnames h

theorem ofDatum_datum (o : Order) : ofDatum o.datum = some o := by
  simp [datum, wireFields, ofDatum, Side.ofIndex_index, Kind.ofIndex_index]

end Order

namespace Snapshot

theorem readsPretty_orders (os : List Order) :
    ReadsPretty (.many Order.shape) (.array (os.map Order.toValue))
      (.many (os.map Order.datum)) := by
  have h := @readsPretty_many Order.shape (os.map fun o => (o.toValue, o.datum))
    (fun p hp => by
      obtain ⟨o, -, rfl⟩ := List.mem_map.1 hp
      exact o.readsPretty_order)
  simpa only [List.map_map, Function.comp_def] using h

theorem mapM_ofDatum (os : List Order) : (os.map Order.datum).mapM Order.ofDatum = some os := by
  induction os with
  | nil => rfl
  | cons o os ih => simp [List.mapM_cons, Order.ofDatum_datum, ih]

/-- The datum a price map of orders reads back as. -/
def mapDatum (entries : List (UInt64 × List Order)) : Datum :=
  .byPrice (entries.map fun e => (e.1, .many (e.2.map Order.datum)))

theorem readsPretty_mapValue {entries : List (UInt64 × List Order)}
    (hkeys : (entries.map (·.1)).Pairwise (· < ·)) :
    ReadsPretty mapShape (mapValue entries) (mapDatum entries) := by
  have h := @readsPretty_byPrice (.many Order.shape)
    (entries.map fun e => (e.1, .array (e.2.map Order.toValue), .many (e.2.map Order.datum)))
    (fun e he => by
      obtain ⟨x, -, rfl⟩ := List.mem_map.1 he
      exact readsPretty_orders x.2)
    (by simpa [List.map_map, Function.comp_def] using hkeys)
  simp only [List.map_map, Function.comp_def] at h
  exact h

theorem mapOf_mapDatum (entries : List (UInt64 × List Order)) :
    mapOf (mapDatum entries) = some entries := by
  induction entries with
  | nil => rfl
  | cons e entries ih =>
    simp only [mapOf, mapDatum, List.map_cons, List.mapM_cons] at ih ⊢
    rw [ih]
    simp only [ordersOf, mapM_ofDatum]
    rfl

/-- The price maps of a snapshot are keyed in ascending order, each price once, as the maps
of a book are. -/
def Keyed (s : Snapshot) : Prop :=
  ∀ m ∈ [s.asks, s.bids, s.stopAsks, s.stopBids], (m.map (·.1)).Pairwise (· < ·)

instance : DecidablePred Keyed := fun s => by
  unfold Keyed
  infer_instance

/-- The fields of a snapshot on the wire: name, shape, written value and the datum it reads
back as. -/
def wireFields (s : Snapshot) : List (String × Shape × Value × Datum) :=
  [("limit_ask", mapShape, mapValue s.asks, mapDatum s.asks),
   ("limit_bid", mapShape, mapValue s.bids, mapDatum s.bids),
   ("stop_ask", mapShape, mapValue s.stopAsks, mapDatum s.stopAsks),
   ("stop_bid", mapShape, mapValue s.stopBids, mapDatum s.stopBids),
   ("history", .many Order.shape, .array (s.history.map Order.toValue),
     .many (s.history.map Order.datum)),
   ("next_order_id", .word, .word s.nextId, .word s.nextId)]

/-- The datum a snapshot reads back as. -/
def datum (s : Snapshot) : Datum := .record (s.wireFields.map (·.2.2.2))

theorem readsPretty_snapshot {s : Snapshot} (hs : s.Keyed) :
    ReadsPretty shape s.toValue s.datum := by
  have h : ∀ f ∈ s.wireFields, ReadsPretty f.2.1 f.2.2.1 f.2.2.2 := by
    simp only [wireFields, List.mem_cons, List.not_mem_nil, or_false]
    rintro f (rfl | rfl | rfl | rfl | rfl | rfl)
    · exact readsPretty_mapValue (hs _ (by simp))
    · exact readsPretty_mapValue (hs _ (by simp))
    · exact readsPretty_mapValue (hs _ (by simp))
    · exact readsPretty_mapValue (hs _ (by simp))
    · exact readsPretty_orders s.history
    · exact readsPretty_word s.nextId
  have hnames : (s.wireFields.map (·.1)).Nodup := by
    simp only [wireFields, List.map_cons, List.map_nil]
    decide
  exact readsPretty_record hnames h

theorem ofDatum_datum (s : Snapshot) : ofDatum s.datum = some s := by
  simp only [datum, wireFields, List.map_cons, List.map_nil, ofDatum, mapOf_mapDatum, ordersOf,
    mapM_ofDatum]
  rfl

/-- **The file text reads back.**  The pretty text of a snapshot whose price maps are keyed
in ascending order reads back, as a stream, as that snapshot. -/
theorem ofText_fileText {s : Snapshot} (hs : s.Keyed) : ofText s.fileText = .ok s := by
  unfold ofText fileText
  rw [text_pretty (readsPretty_snapshot hs)]
  show convert "struct BookSnapshot" ofDatum s.datum = .ok s
  simp only [convert, ofDatum_datum]

end Snapshot

namespace SnapshotFile

/-- A save that succeeds leaves an ordinary file holding the snapshot's text. -/
theorem save_eq_ok {f f' : SnapshotFile} {s : Snapshot} (h : f.save s = .ok f') :
    f'.place = .fresh ∧ f'.contents = some s.fileText := by
  unfold save at h
  split at h
  · rename_i hplace
    cases h
    exact ⟨hplace, rfl⟩
  all_goals cases h

/-- An ordinary file holding the text of a keyed snapshot loads as that snapshot. -/
theorem load_of_fileText {f : SnapshotFile} {s : Snapshot} (hs : s.Keyed)
    (hplace : f.place = .fresh) (hcontents : f.contents = some s.fileText) :
    f.load = .ok (some s) := by
  simp [load, hplace, hcontents, Snapshot.ofText_fileText hs]

/-- **Save, then load.**  Once a save of a snapshot whose price maps are keyed in ascending
order succeeds, loading the file gives back that snapshot: every word up to `2 ^ 64 - 1`,
every user id whatever characters it holds, every queue in its order and the whole history.
The keys are written as decimal strings and read back as the same words; sides and kinds
keep their tags. -/
theorem load_of_save {f f' : SnapshotFile} {s : Snapshot} (hs : s.Keyed)
    (h : f.save s = .ok f') : f'.load = .ok (some s) := by
  obtain ⟨hplace, hcontents⟩ := save_eq_ok h
  exact load_of_fileText hs hplace hcontents

/-- A snapshot with asks at 5 and at the largest word, one of them from a user whose id holds
a quote, a backslash, a NUL and a character beyond the basic plane, and the largest word as
next id: saved to a fresh file, it loads back. -/
theorem load_of_save_unusual_user :
    let s : Snapshot :=
      { asks := [(5, [Order.limit 1 .ask 2 5 ""]),
          (18446744073709551615, [Order.limit 7 .ask 3 18446744073709551615 "q\"b\\z\x00😀"])],
        bids := [], stopAsks := [], stopBids := [],
        history := [{ Order.limit 2 .bid 4 5 "m" with timestamp := 9 }],
        nextId := 18446744073709551615 }
    s.Keyed ∧
      ({ place := .fresh, contents := none } : SnapshotFile).save s =
        .ok { place := .fresh, contents := some s.fileText } ∧
      ({ place := .fresh, contents := some s.fileText } : SnapshotFile).load = .ok (some s) := by
  intro s
  exact ⟨by decide, rfl,
    @load_of_save { place := .fresh, contents := none } _ s (by decide) rfl⟩

end SnapshotFile

end Bourse

import Leasehold.Keyspace.Codec
import Leasehold.Proofs.Json.Decode
import Leasehold.Proofs.Store.View
import Leasehold.Proofs.Time.Timestamp

/-!
# Keyspaces read back

A keyspace whose expiries can be written is read back from its text record by
record, and the result is not dirty. Whatever text a keyspace is read from, its
expiries can be written, and operations keep them so.
-/

namespace Leasehold

/-- The bytes of a text are those of this text only. -/
theorem fromUTF8?_toUTF8 (text : String) : String.fromUTF8? text.toUTF8 = some text :=
  dif_pos text.isValidUTF8

/-- Bytes that are those of a text are its bytes. -/
theorem toUTF8_of_fromUTF8? {content : ByteArray} {text : String}
    (utf8 : String.fromUTF8? content = some text) : text.toUTF8 = content := by
  unfold String.fromUTF8? at utf8
  split at utf8
  · cases utf8
    rfl
  · contradiction

/-- That the expiry of a record, if it has one, can be written. -/
def Entry.IsProper (entry : Entry) : Prop :=
  ∀ expiry ∈ entry.expiresAt, expiry.IsProper

/-- That all expiries of a keyspace can be written. -/
def Keyspace.IsProper (keyspace : Keyspace) : Prop :=
  ∀ key entry, keyspace.entries.get? key = some entry → entry.IsProper

/-! ## Records -/

@[simp]
theorem Fields.ofRaw?_toJson (fields : Fields) : Fields.ofRaw? fields.toJson.raw = some fields :=
  Json.map?_raw_ofMap fun _ _ => by simp

theorem Instant.ofRaw?_toJson {t : Instant} (proper : t.IsProper) :
    Instant.ofRaw? t.toJson.raw = some t := by
  simp [Instant.ofRaw?, Instant.toJson, Timestamp.read?_write proper]

/-- A record is read back. -/
theorem Entry.ofRaw?_toJson {entry : Entry} (proper : entry.IsProper) :
    Entry.ofRaw? entry.toJson.raw = some entry := by
  obtain ⟨fields, expiresAt⟩ := entry
  cases expiresAt with
  | none => simp [Entry.ofRaw?, Entry.toJson, Json.fields?_raw_object, Json.Raw.valuesOf]
  | some expiry =>
      have read := Instant.ofRaw?_toJson (proper expiry rfl)
      have given : Json.Raw.optional? Instant.ofRaw? expiry.toJson.raw =
          (Instant.ofRaw? expiry.toJson.raw).map some := rfl
      simp [Entry.ofRaw?, Entry.toJson, Json.fields?_raw_object, Json.Raw.valuesOf, given, read]

/-- The expiry of a record that was read can be written. -/
theorem Entry.isProper_of_ofRaw? {raw : Json.Raw} {entry : Entry}
    (read : Entry.ofRaw? raw = some entry) : entry.IsProper := by
  simp only [Entry.ofRaw?, Option.bind_eq_bind, Option.bind_eq_some_iff] at read
  obtain ⟨found, _, read⟩ := read
  split at read
  next fields expiry =>
    split at read
    next =>
      simp only [Option.bind_some, Option.bind_eq_some_iff, Option.pure_def,
        Option.some.injEq] at read
      obtain ⟨_, _, rfl⟩ := read
      intro _ none
      cases none
    next given =>
      simp only [Option.bind_eq_some_iff, Option.pure_def, Option.some.injEq] at read
      obtain ⟨expiresAt, optional, _, _, rfl⟩ := read
      intro t expires
      rcases Json.optional?_eq_some optional with rfl | ⟨instant, ofText, rfl⟩
      · cases expires
      · rcases Option.bind_eq_some_iff.mp ofText with ⟨text, _, fromText⟩
        cases expires
        exact Timestamp.isProper_of_read? fromText
  next => contradiction

/-! ## Keyspaces -/

namespace Keyspace

variable {keyspace : Keyspace} {now : Instant}

theorem isWhole_entriesJson (keyspace : Keyspace) : keyspace.entriesJson.IsWhole := by
  have fields (fields : Fields) : fields.toJson.IsWhole := Json.isWhole_ofMap fun _ => trivial
  refine Json.isWhole_ofMap fun ⟨found, expiresAt⟩ => ?_
  cases expiresAt with
  | none => exact ⟨fields found, trivial⟩
  | some expiry => exact ⟨fields found, trivial, trivial⟩

/-- A keyspace is read back from its text, and is as it was last written down. -/
theorem read?_write (proper : keyspace.IsProper) :
    read? keyspace.write = some ⟨keyspace.entries, false⟩ := by
  have whole : (Json.object [("entries", keyspace.entriesJson)]).IsWhole :=
    ⟨keyspace.isWhole_entriesJson, trivial⟩
  have blank : ∀ c ∈ [], Json.Reading.isSpace c := by simp
  have tree := Json.read?_writePretty whole blank
  have entries : keyspace.entriesJson.raw.map? Entry.ofRaw? = some keyspace.entries :=
    Json.map?_raw_ofMap fun pair member =>
      Entry.ofRaw?_toJson (proper pair.1 pair.2 (TextMap.get?_of_mem member))
  rw [List.append_nil] at tree
  simp [read?, write, Json.pretty, tree, Json.fields?_raw_object, Json.Raw.valuesOf, entries]

/-- What was read can be written. -/
theorem isProper_of_read? {text : String} (read : read? text = some keyspace) :
    keyspace.IsProper := by
  simp only [read?, Option.bind_eq_bind, Option.bind_eq_some_iff] at read
  obtain ⟨_, _, found, _, read⟩ := read
  split at read
  next entries =>
    simp only [Option.bind_eq_some_iff, Option.pure_def, Option.some.injEq] at read
    obtain ⟨map, mapRead, rfl⟩ := read
    intro key entry present
    rcases Json.exists_decode_of_map? mapRead present with ⟨_, decoded⟩
    exact Entry.isProper_of_ofRaw? decoded
  next =>
    cases read
    intro key entry present
    contradiction
  next => contradiction

/-- A keyspace that was read is not dirty. -/
theorem dirty_of_read? {text : String} (read : read? text = some keyspace) :
    keyspace.dirty = false := by
  simp only [read?, Option.bind_eq_bind, Option.bind_eq_some_iff] at read
  obtain ⟨_, _, found, _, read⟩ := read
  split at read
  next =>
    simp only [Option.bind_eq_some_iff, Option.pure_def, Option.some.injEq] at read
    obtain ⟨_, _, rfl⟩ := read
    rfl
  next =>
    cases read
    rfl
  next => contradiction

/-! ## Operations -/

theorem isProper_empty : empty.IsProper := by
  intro key entry present
  contradiction

theorem IsProper.purge (proper : keyspace.IsProper) (now : Instant) :
    (keyspace.purge now).IsProper := by
  intro key entry present
  rw [get?_purge] at present
  exact proper key entry (get?_of_live? present)

/-- A record put into a keyspace has to have an expiry that can be written. -/
theorem IsProper.insert (proper : keyspace.IsProper) (key : String) {entry : Entry}
    (properEntry : entry.IsProper) {dirty : Bool} :
    IsProper ⟨keyspace.entries.insert key entry, dirty⟩ := by
  intro other found present
  rw [TextMap.get?_insert] at present
  split at present
  next =>
    cases present
    exact properEntry
  next => exact proper other found present

theorem IsProper.apply (proper : keyspace.IsProper) (now : Instant) (call : StoreCall) :
    (keyspace.apply now call).2.IsProper := by
  cases call with
  | create key fields ttl =>
      simp only [Keyspace.apply, create]
      split
      · exact proper
      · exact proper.insert key fun expiry expires => by
          cases expires
          exact Instant.isProper_add now ttl
  | merge key fields =>
      refine proper.insert key fun expiry expires => ?_
      cases found : keyspace.entries.get? key with
      | none => simp [found] at expires
      | some entry => exact proper key entry found expiry (by simpa [found] using expires)
  | expire key ttl condition =>
      simp only [Keyspace.apply, expire]
      split
      · split
        · exact proper.insert key fun expiry expires => by
            cases expires
            exact Instant.isProper_add now ttl
        · exact proper
      · exact proper
  | delete key condition =>
      simp only [Keyspace.apply, delete]
      split
      · intro other entry present
        rw [TextMap.get?_erase] at present
        split at present
        · contradiction
        · exact proper other entry present
      · exact proper
  | replace tables filter =>
      intro key entry present
      rcases TextMap.mem_of_get?_insertMany present with listed | kept
      · rcases List.mem_map.mp listed with ⟨_, _, same⟩
        cases same
        intro expiry expires
        contradiction
      · rw [TextMap.get?_filter, Option.filter_eq_some_iff] at kept
        exact proper key entry kept.1
  | fetch _ => exact proper
  | lifetime _ => exact proper
  | keys => exact proper
  | dump _ => exact proper

/-- A call keeps the expiries such that they can be written. -/
theorem IsProper.serve (proper : keyspace.IsProper) (now : Instant) (call : StoreCall) :
    (keyspace.serve now call).2.IsProper :=
  (proper.purge now).apply now call

end Keyspace

end Leasehold

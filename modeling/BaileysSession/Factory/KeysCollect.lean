import BaileysSession.Factory.KeysSet

set_option autoImplicit false

namespace BaileysSession.KeysSet

variable {Value : Type}

def items (bucket : Category × Option (InsertionMap String Value)) : List (String × Value) :=
  bucket.2.elim [] InsertionMap.entries

def request (data : SignalDataSet Value) (category : Category) (id : String) : Option Value :=
  (data.get? category).join.bind fun bucket => bucket.get? id

theorem request_eq_some_iff (data : SignalDataSet Value) (category : Category) (id : String)
    (value : Value) :
    request data category id = some value ↔
      ∃ bucket ∈ data.entries, bucket.1 = category ∧ (id, value) ∈ items bucket := by
  unfold request
  constructor
  · intro found
    obtain ⟨ids, bucket, stored⟩ := Option.bind_eq_some_iff.mp found
    rw [Option.join_eq_some_iff] at bucket
    exact ⟨(category, some ids), (InsertionMap.get?_eq_some_iff _ _ _).mp bucket, rfl,
      (InsertionMap.get?_eq_some_iff _ _ _).mp stored⟩
  · rintro ⟨⟨_, ids⟩, inside, rfl, item⟩
    cases ids with
    | none => cases item
    | some ids =>
      rw [(InsertionMap.get?_eq_some_iff _ _ _).mpr inside]
      exact (InsertionMap.get?_eq_some_iff _ _ _).mpr item

variable (call : Call Value)

theorem collectIds (category : Category) (ids : List (String × Value)) (changes : Changes) :
    ids.foldl (collectId call category) changes =
      ⟨changes.entries ++ (ids.filter fun item => call.truthy item.2).map fun item =>
          ⟨cacheKeyName category item.1, call.encode category item.1 item.2⟩,
        changes.deletions ++ (ids.filter fun item => !call.truthy item.2).map fun item =>
          cacheKeyName category item.1⟩ := by
  induction ids generalizing changes with
  | nil => simp
  | cons item rest ih =>
    rw [List.foldl_cons, ih]
    by_cases stored : call.truthy item.2 = true <;> simp [collectId, stored]

theorem collectBucket_items (changes : Changes)
    (bucket : Category × Option (InsertionMap String Value)) :
    collectBucket call changes bucket = (items bucket).foldl (collectId call bucket.1) changes := by
  obtain ⟨category, ids⟩ := bucket
  cases ids <;> rfl

theorem collect_eq :
    collect call =
      ⟨call.data.entries.flatMap fun bucket =>
          ((items bucket).filter fun item => call.truthy item.2).map fun item =>
            ⟨cacheKeyName bucket.1 item.1, call.encode bucket.1 item.1 item.2⟩,
        call.data.entries.flatMap fun bucket =>
          ((items bucket).filter fun item => !call.truthy item.2).map fun item =>
            cacheKeyName bucket.1 item.1⟩ := by
  have folded : ∀ (buckets : List (Category × Option (InsertionMap String Value)))
      (changes : Changes), buckets.foldl (collectBucket call) changes =
        ⟨changes.entries ++ buckets.flatMap fun bucket =>
            ((items bucket).filter fun item => call.truthy item.2).map fun item =>
              ⟨cacheKeyName bucket.1 item.1, call.encode bucket.1 item.1 item.2⟩,
          changes.deletions ++ buckets.flatMap fun bucket =>
            ((items bucket).filter fun item => !call.truthy item.2).map fun item =>
              cacheKeyName bucket.1 item.1⟩ := by
    intro buckets
    induction buckets with
    | nil => simp
    | cons bucket rest ih =>
      intro changes
      rw [List.foldl_cons, ih, collectBucket_items, collectIds]
      simp
  rw [collect, folded]
  simp

theorem mem_entries (entry : Entry) :
    entry ∈ (collect call).entries ↔ ∃ category id value, request call.data category id = some value ∧
      call.truthy value = true ∧
        entry = ⟨cacheKeyName category id, call.encode category id value⟩ := by
  rw [collect_eq]
  constructor
  · intro inside
    obtain ⟨bucket, present, mapped⟩ := List.mem_flatMap.mp inside
    obtain ⟨⟨id, value⟩, kept, rfl⟩ := List.mem_map.mp mapped
    obtain ⟨item, stored⟩ := List.mem_filter.mp kept
    exact ⟨bucket.1, id, value, (request_eq_some_iff _ _ _ _).mpr ⟨bucket, present, rfl, item⟩,
      stored, rfl⟩
  · rintro ⟨category, id, value, requested, stored, rfl⟩
    obtain ⟨bucket, present, rfl, item⟩ := (request_eq_some_iff _ _ _ _).mp requested
    exact List.mem_flatMap.mpr ⟨bucket, present, List.mem_map.mpr
      ⟨(id, value), List.mem_filter.mpr ⟨item, stored⟩, rfl⟩⟩

theorem mem_deletions (key : String) :
    key ∈ (collect call).deletions ↔ ∃ category id value, request call.data category id = some value ∧
      call.truthy value = false ∧ key = cacheKeyName category id := by
  rw [collect_eq]
  constructor
  · intro inside
    obtain ⟨bucket, present, mapped⟩ := List.mem_flatMap.mp inside
    obtain ⟨⟨id, value⟩, kept, rfl⟩ := List.mem_map.mp mapped
    obtain ⟨item, deleted⟩ := List.mem_filter.mp kept
    exact ⟨bucket.1, id, value, (request_eq_some_iff _ _ _ _).mpr ⟨bucket, present, rfl, item⟩,
      by simpa using deleted, rfl⟩
  · rintro ⟨category, id, value, requested, deleted, rfl⟩
    obtain ⟨bucket, present, rfl, item⟩ := (request_eq_some_iff _ _ _ _).mp requested
    exact List.mem_flatMap.mpr ⟨bucket, present, List.mem_map.mpr
      ⟨(id, value), List.mem_filter.mpr ⟨item, by simpa using deleted⟩, rfl⟩⟩

end BaileysSession.KeysSet

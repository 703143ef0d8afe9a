/-! Fields of a document in the order in which they were written. A list of named values is read
at the first field of a name; writing keeps the place of a name that is already there and puts a
new name last, so the order of the names never changes while they stay. -/

namespace DocPath.Fields
universe u
variable {α : Type u}

def names (fields : List (String × α)) : List String := fields.map Prod.fst

/-- The value of the first field called `name`. -/
def get? (name : String) : List (String × α) → Option α
  | [] => none
  | field :: rest => if field.1 = name then some field.2 else get? name rest

/-- The fields with `name` holding `value`: a name already present keeps its place, a new one goes
last. -/
def put (name : String) (value : α) : List (String × α) → List (String × α)
  | [] => [(name, value)]
  | field :: rest =>
      if field.1 = name then (name, value) :: rest else field :: put name value rest

def erase (name : String) : List (String × α) → List (String × α)
  | [] => []
  | field :: rest => if field.1 = name then rest else field :: erase name rest

def ofList (entries : List (String × α)) : List (String × α) :=
  entries.foldl (fun fields entry => put entry.1 entry.2 fields) []

theorem sizeOf_snd_lt [SizeOf α] {fields : List (String × α)} {field : String × α}
    (member : field ∈ fields) : sizeOf field.2 < 1 + sizeOf fields := by
  have inList := List.sizeOf_lt_of_mem member
  have inField : sizeOf field.2 < sizeOf field := by
    cases field
    simp only [Prod.mk.sizeOf_spec]
    omega
  omega

@[simp] theorem names_nil : names ([] : List (String × α)) = [] := rfl

@[simp] theorem names_cons (field : String × α) (rest : List (String × α)) :
    names (field :: rest) = field.1 :: names rest := rfl

@[simp] theorem get?_nil (name : String) : get? name ([] : List (String × α)) = none := rfl

theorem get?_eq_none_iff {name : String} {fields : List (String × α)} :
    get? name fields = none ↔ name ∉ names fields := by
  induction fields with
  | nil => simp
  | cons field rest ih =>
    by_cases same : field.1 = name
    · simp [get?, same]
    · simp [get?, same, ih, Ne.symm same]

theorem mem_names_iff {name : String} {fields : List (String × α)} :
    name ∈ names fields ↔ ∃ value, get? name fields = some value := by
  rw [← Option.ne_none_iff_exists', Ne, get?_eq_none_iff, Decidable.not_not]

theorem mem_of_get?_eq_some {name : String} {value : α} {fields : List (String × α)}
    (found : get? name fields = some value) : (name, value) ∈ fields := by
  induction fields with
  | nil => simp at found
  | cons field rest ih =>
    by_cases same : field.1 = name
    · obtain rfl : field.2 = value := by simpa [get?, same] using found
      exact List.mem_cons.mpr (Or.inl (by rw [← same]))
    · exact List.mem_cons_of_mem _ (ih (by simpa [get?, same] using found))

theorem get?_of_mem {fields : List (String × α)} (distinct : (names fields).Nodup)
    {field : String × α} (member : field ∈ fields) : get? field.1 fields = some field.2 := by
  induction fields with
  | nil => cases member
  | cons first rest ih =>
    have parts := List.nodup_cons.mp distinct
    rcases List.mem_cons.mp member with same | later
    · rw [get?, if_pos (congrArg Prod.fst same.symm), same]
    · have differ : first.1 ≠ field.1 := fun same => parts.1 (same ▸ List.mem_map_of_mem later)
      rw [get?, if_neg differ, ih parts.2 later]

@[simp] theorem get?_put_self (name : String) (value : α) (fields : List (String × α)) :
    get? name (put name value fields) = some value := by
  induction fields with
  | nil => simp [put, get?]
  | cons field rest ih =>
    by_cases same : field.1 = name
    · simp [put, get?, same]
    · simp [put, get?, same, ih]

theorem get?_put_of_ne {name other : String} (differ : other ≠ name) (value : α)
    (fields : List (String × α)) : get? other (put name value fields) = get? other fields := by
  induction fields with
  | nil => simp [put, get?, Ne.symm differ]
  | cons field rest ih =>
    by_cases same : field.1 = name
    · simp [put, get?, same, Ne.symm differ]
    · simp [put, get?, same, ih]

@[simp] theorem names_map {β : Type u} (change : α → β) (fields : List (String × α)) :
    names (fields.map fun field => (field.1, change field.2)) = names fields := by
  rw [names, names, List.map_map]
  rfl

theorem get?_map {β : Type u} (change : α → β) (name : String) (fields : List (String × α)) :
    get? name (fields.map fun field => (field.1, change field.2)) = (get? name fields).map change := by
  induction fields with
  | nil => rfl
  | cons field rest ih =>
    by_cases same : field.1 = name
    · simp [get?, same]
    · simp [get?, same, ih]

theorem put_of_get? {name : String} {value : α} {fields : List (String × α)}
    (found : get? name fields = some value) : put name value fields = fields := by
  induction fields with
  | nil => simp at found
  | cons field rest ih =>
    by_cases same : field.1 = name
    · obtain rfl : field.2 = value := by simpa [get?, same] using found
      simp [put, ← same]
    · simp [put, same, ih (by simpa [get?, same] using found)]

@[simp] theorem put_put (name : String) (first second : α) (fields : List (String × α)) :
    put name second (put name first fields) = put name second fields := by
  induction fields with
  | nil => simp [put]
  | cons field rest ih =>
    by_cases same : field.1 = name
    · simp [put, same]
    · simp [put, same, ih]

theorem mem_put {name : String} {value : α} {fields : List (String × α)} {field : String × α}
    (member : field ∈ put name value fields) : field = (name, value) ∨ field ∈ fields := by
  induction fields with
  | nil => exact Or.inl (List.mem_singleton.mp member)
  | cons first rest ih =>
    unfold put at member
    split at member
    · rcases List.mem_cons.mp member with new | later
      · exact Or.inl new
      · exact Or.inr (List.mem_cons_of_mem first later)
    · rcases List.mem_cons.mp member with same | later
      · exact Or.inr (List.mem_cons.mpr (Or.inl same))
      · rcases ih later with new | before
        · exact Or.inl new
        · exact Or.inr (List.mem_cons_of_mem first before)

theorem names_put_of_mem {name : String} {fields : List (String × α)}
    (present : name ∈ names fields) (value : α) : names (put name value fields) = names fields := by
  induction fields with
  | nil => simp at present
  | cons field rest ih =>
    by_cases same : field.1 = name
    · simp [put, same]
    · have later : name ∈ names rest := by simpa [Ne.symm same] using present
      simp [put, same, ih later]

theorem put_of_not_mem {name : String} {fields : List (String × α)}
    (missing : name ∉ names fields) (value : α) :
    put name value fields = fields ++ [(name, value)] := by
  induction fields with
  | nil => rfl
  | cons field rest ih =>
    have parts : name ≠ field.1 ∧ name ∉ names rest := by simpa using missing
    simp [put, Ne.symm parts.1, ih parts.2]

theorem nodup_names_put {fields : List (String × α)} (distinct : (names fields).Nodup)
    (name : String) (value : α) : (names (put name value fields)).Nodup := by
  by_cases present : name ∈ names fields
  · rw [names_put_of_mem present]
    exact distinct
  · have fresh : ∀ other ∈ names fields, other ≠ name :=
      fun other member same => present (same ▸ member)
    rw [put_of_not_mem present, names, List.map_append]
    exact List.nodup_append.mpr
      ⟨distinct, by simp, fun other member last isLast => by
        have lastName : last = name := by simpa using isLast
        exact lastName ▸ fresh other member⟩

theorem not_mem_names_front {front rest : List (String × α)} {field : String × α}
    (distinct : (names (front ++ field :: rest)).Nodup) : field.1 ∉ names front := by
  intro member
  rw [names, List.map_append] at distinct
  exact (List.nodup_append.mp distinct).2.2 field.1 member field.1 List.mem_cons_self rfl

theorem ofList_of_nodup {entries : List (String × α)} (distinct : (names entries).Nodup) :
    ofList entries = entries := by
  have appended : ∀ front : List (String × α), (names (front ++ entries)).Nodup →
      entries.foldl (fun fields entry => put entry.1 entry.2 fields) front = front ++ entries := by
    induction entries with
    | nil => exact fun front _ => (List.append_nil front).symm
    | cons entry rest ih =>
      intro front apart
      have tail : (names rest).Nodup := (List.nodup_cons.mp distinct).2
      have step : put entry.1 entry.2 front = front ++ [entry] :=
        put_of_not_mem (not_mem_names_front apart) entry.2
      rw [List.foldl_cons, step, ih tail (front ++ [entry]) (by simpa using apart)]
      simp
  exact appended [] distinct

theorem mem_ofList {entries : List (String × α)} {entry : String × α}
    (member : entry ∈ ofList entries) : entry ∈ entries := by
  have kept : ∀ fields : List (String × α),
      entry ∈ entries.foldl (fun fields entry => put entry.1 entry.2 fields) fields →
        entry ∈ fields ∨ entry ∈ entries := by
    clear member
    induction entries with
    | nil => exact fun fields before => Or.inl before
    | cons first rest ih =>
      intro fields after
      rcases ih _ after with put | later
      · rcases mem_put put with same | before
        · exact Or.inr (same ▸ List.mem_cons_self)
        · exact Or.inl before
      · exact Or.inr (List.mem_cons_of_mem first later)
  rcases kept [] member with none | inside
  · cases none
  · exact inside

theorem erase_sublist (name : String) (fields : List (String × α)) :
    (erase name fields).Sublist fields := by
  induction fields with
  | nil => exact List.Sublist.slnil
  | cons field rest ih =>
    by_cases same : field.1 = name
    · simp [erase, same]
    · simpa [erase, same] using ih

theorem nodup_names_erase {fields : List (String × α)} (distinct : (names fields).Nodup)
    (name : String) : (names (erase name fields)).Nodup :=
  distinct.sublist ((erase_sublist name fields).map Prod.fst)

theorem nodup_names_filter {fields : List (String × α)} (distinct : (names fields).Nodup)
    (keep : String × α → Bool) : (names (fields.filter keep)).Nodup :=
  distinct.sublist (List.filter_sublist.map Prod.fst)

theorem get?_filter {fields : List (String × α)} (distinct : (names fields).Nodup) (keep : α → Bool)
    (name : String) :
    get? name (fields.filter fun field => keep field.2) = (get? name fields).filter keep := by
  rw [Option.ext_iff]
  intro value
  rw [Option.filter_eq_some_iff]
  constructor
  · intro found
    obtain ⟨member, passed⟩ := List.mem_filter.mp (mem_of_get?_eq_some found)
    exact ⟨get?_of_mem distinct member, passed⟩
  · intro found
    obtain ⟨held, passed⟩ := found
    exact get?_of_mem (nodup_names_filter distinct _)
      (List.mem_filter.mpr ⟨mem_of_get?_eq_some held, passed⟩)

theorem nodup_names_ofList (entries : List (String × α)) : (names (ofList entries)).Nodup := by
  have kept : ∀ fields : List (String × α), (names fields).Nodup →
      (names (entries.foldl (fun fields entry => put entry.1 entry.2 fields) fields)).Nodup := by
    induction entries with
    | nil => exact fun _ distinct => distinct
    | cons entry rest ih =>
      exact fun fields distinct => ih _ (nodup_names_put distinct entry.1 entry.2)
  exact kept [] List.nodup_nil

end DocPath.Fields

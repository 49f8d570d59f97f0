import DocQuery.Document.Basic

namespace DocQuery.Document

/-- The flat form shows under every name what the document has for it as a field. -/
theorem get?_entityMembers (name : String) (d : Document) :
    Entries.get? name d.entityMembers = d.field? name := by
  rw [entityMembers, Entries.get?_set, Entries.get?_set, Entries.get?_set, field?]
  by_cases hid : name = idField
  · subst hid
    rfl
  by_cases hcreated : name = createdField
  · subst hcreated
    rfl
  by_cases hupdated : name = updatedField
  · subst hupdated
    rfl
  simp only [hid, hcreated, hupdated, Ne.symm hid, Ne.symm hcreated, Ne.symm hupdated, if_false]

end DocQuery.Document

/-
  ProfileMigration.Proofs.Build.Reasons

  Why a parcel fails in a build:

    missingText                     -- what is said of a reference without a remote identifier
    Parcel.unknown_of_request       -- a body is missing for an unknown reference
    Turn.Lawful.request_of_missing  -- the words are only said of a parcel with that reference
    Turn.Lawful.created_of_answered -- a parcel that lacks nothing is created, if the manager
                                       answers

  Words for failed calls always have a colon in them, and identifiers never do.
-/
import ProfileMigration.Proofs.Build.Account
import ProfileMigration.Proofs.Field.ReferenceBounds
import ProfileMigration.Proofs.Identity.UuidText

namespace ProfileMigration

/-! ## Words -/

/-- What is said of a parcel that refers to an object without a remote identifier. -/
def missingText (id : Uuid) : String := "reference " ++ id.text ++ " was not created"

theorem toList_missingText (id : Uuid) :
    (missingText id).toList =
      "reference ".toList ++ (id.text.toList ++ " was not created".toList) := by
  rw [missingText, String.toList_append, String.toList_append, List.append_assoc]

theorem missingText_injective {a b : Uuid} (h : missingText a = missingText b) : a = b := by
  have hlist := congrArg String.toList h
  rw [toList_missingText, toList_missingText] at hlist
  have htext := List.append_cancel_right (List.append_cancel_left hlist)
  exact Uuid.text_injective (String.toList_inj.mp htext)

theorem colon_not_mem_missingText (id : Uuid) : ':' ∉ (missingText id).toList := by
  rw [toList_missingText, List.mem_append, List.mem_append]
  rintro (h | h | h)
  · revert h
    decide
  · exact Uuid.colon_not_mem_text id h
  · revert h
    decide

theorem TransportError.colon_mem_message (e : TransportError) : ':' ∈ e.message.toList := by
  have hfailed : ':' ∈ " failed: ".toList := by decide
  have hbody : ':' ∈ ": ".toList := by decide
  cases e with
  | unreachable method path cause =>
    show ':' ∈ (method ++ " " ++ path ++ " failed: " ++ cause).toList
    rw [String.toList_append, String.toList_append]
    exact List.mem_append_left _ (List.mem_append_right _ hfailed)
  | status method path code request body =>
    show ':' ∈ (method ++ " " ++ path ++ " returned " ++ toString code.toNat ++ ": " ++ body).toList
    rw [String.toList_append, String.toList_append]
    exact List.mem_append_left _ (List.mem_append_right _ hbody)
  | malformed path reason response =>
    show ':' ∈ ("malformed response from " ++ path ++ ": " ++ reason).toList
    rw [String.toList_append, String.toList_append]
    exact List.mem_append_left _ (List.mem_append_right _ hbody)

theorem missingText_ne_message (id : Uuid) (e : TransportError) : e.message ≠ missingText id := by
  intro h
  exact colon_not_mem_missingText id (h ▸ e.colon_mem_message)

/-- The words begin unlike those for a child without parent. -/
theorem head?_missingText (id : Uuid) : (missingText id).toList.head? = some 'r' := by
  rw [toList_missingText]
  rfl

/-! ## Missing references -/

/-- A parcel without a body refers to an object without a remote identifier. -/
theorem Parcel.unknown_of_request {p : Parcel} {ids : RemoteIds} {r : Uuid}
    (h : p.request ids = .error r) : r ∈ p.references ∧ ids.get? r = none := by
  have hbind : p.data.bind ids = .error r := by
    rw [request] at h
    cases hdata : p.data.bind ids with
    | error e =>
      rw [hdata] at h
      cases h
      rfl
    | ok data =>
      rw [hdata] at h
      cases h
  have hfind := (p.data.firstUnbound_bind ids r).mp hbind
  have hnone : (ids.get? r).isNone := List.find?_some (p := fun id => (ids.get? id).isNone) hfind
  exact ⟨List.mem_eraseDups.mpr (List.mem_of_find?_eq_some hfind),
    Option.isNone_iff_eq_none.mp hnone⟩

namespace Turn

/-- An entry among the failed parcels tells why the parcel was held, or of a failed call. -/
theorem error_of_mem_failedItems {t : Turn} {f : FailedItem} (hf : f ∈ t.failedItems) :
    t.fate = .held f.error ∨ ∃ e : TransportError, f.error = e.message := by
  rcases List.mem_append.mp hf with hf | hf
  · have hf := Option.mem_toList.mp hf
    rw [creationFailure?] at hf
    split at hf
    · rename_i reason hfate
      rw [← Option.some.inj hf]
      exact .inl hfate
    · rename_i e _
      rw [← Option.some.inj hf]
      exact .inr ⟨e, rfl⟩
    · cases hf
    · cases hf
  · obtain ⟨binding, -, hbinding⟩ := Option.bind_eq_some_iff.mp (Option.mem_toList.mp hf)
    split at hbinding
    · cases hbinding
    · rename_i e _
      rw [← Option.some.inj hbinding]
      exact .inr ⟨e, rfl⟩

namespace Lawful

variable {ids : RemoteIds} {base : String} {earlier : List Turn} {t : Turn}

/-- A reference is said to be missing only of a parcel that has no body for want of it. -/
theorem request_of_missing (h : t.Lawful ids base earlier) {f : FailedItem}
    (hf : f ∈ t.failedItems) {r : Uuid} (hr : f.error = missingText r) :
    t.parcel.request (known ids earlier) = .error r := by
  rcases error_of_mem_failedItems hf with hheld | ⟨e, he⟩
  · rw [hr] at hheld
    -- A parcel that could be sent is only held for a reference
    have hsent : ∀ {path : String} {p : Parcel} {fate : Fate},
        Sent (known ids earlier) path p fate → fate = .held (missingText r) →
          p.request (known ids earlier) = .error r := by
      intro path p fate hsent hfate
      cases hsent with
      | unbound hrequest =>
        rw [hrequest, missingText_injective (Fate.held.inj hfate)]
      | failed _ | nameless _ _ | created _ _ => cases hfate
    -- The words for children without a parent begin with another letter
    have hhead := head?_missingText r
    cases h with
    | alone h | parent h | nested _ _ _ h | unbound _ _ _ h _ => exact hsent h hheld
    | orphan _ =>
      have hne : "no parent queued under its tag".toList.head? ≠ some 'r' := by decide
      rw [← Fate.held.inj hheld] at hhead
      exact absurd hhead hne
    | bereft _ _ =>
      rw [← Fate.held.inj hheld, String.toList_append, String.toList_append] at hhead
      cases hhead
    | bound _ _ _ _ _ => cases hheld
  · -- The words for failed calls have a colon
    rw [hr] at he
    exact absurd he.symm (missingText_ne_message r e)

/-! ## Answered turns -/

/-- A parcel whose references and parent are there is created without a complaint, if the
    manager answers every call with an identifier. -/
theorem created_of_answered (h : t.Lawful ids base earlier)
    (hrequest : ∀ r, t.parcel.request (known ids earlier) ≠ .error r)
    (hparent : ∀ tag, t.seat = .child tag →
      ∃ q, parentOf earlier tag = some q ∧ q.fate.id?.isSome)
    (hanswers : ∀ x ∈ t.exchanges, x.id?.isSome) :
    t.fate.id?.isSome ∧ t.failedItems = [] := by
  have hsent : ∀ {path : String} {p : Parcel} {fate : Fate},
      Sent (known ids earlier) path p fate → (∀ r, p.request (known ids earlier) ≠ .error r) →
        (∀ x, fate.creation? = some x → x.id?.isSome) →
        ∃ x id, fate = .created x id := by
    intro path p fate hsent hrequest hanswers
    cases hsent with
    | unbound h => exact absurd h (hrequest _)
    | failed _ => cases hanswers _ rfl
    | nameless _ hid =>
      have hsome := hanswers _ rfl
      rw [show Exchange.id? _ = createdId _ from rfl, hid] at hsome
      cases hsome
    | created _ _ => exact ⟨_, _, rfl⟩
  have hcreation : ∀ x, t.fate.creation? = some x → x.id?.isSome := fun x hx =>
    hanswers x (List.mem_append_left _ (Option.mem_toList.mpr hx))
  cases h with
  | alone h | parent h | nested _ _ _ h =>
    obtain ⟨x, id, rfl⟩ := hsent h hrequest hcreation
    exact ⟨rfl, rfl⟩
  | unbound _ _ _ h hnone =>
    -- A child that is created outside its parent goes on to the binding
    obtain ⟨x, id, rfl⟩ := hsent h hrequest hcreation
    cases hnone
  | orphan hnone =>
    obtain ⟨q, hq, -⟩ := hparent _ rfl
    rw [hnone] at hq
    cases hq
  | bereft hsome hnone =>
    obtain ⟨q, hq, hid⟩ := hparent _ rfl
    rw [hsome] at hq
    rw [← Option.some.inj hq, hnone] at hid
    cases hid
  | @bound _ _ _ _ _ _ binding _ _ _ _ _ =>
    -- The parent has answered too, so there is no complaint about it
    refine ⟨rfl, ?_⟩
    have hbinding := hanswers binding (List.mem_append_right _ (List.mem_singleton.mpr rfl))
    obtain ⟨call, answer⟩ := binding
    cases answer with
    | ok _ => rfl
    | error _ => cases hbinding

end Lawful

end Turn

end ProfileMigration

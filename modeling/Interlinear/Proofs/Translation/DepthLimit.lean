import Interlinear.Proofs.Dictionary
import Interlinear.Proofs.Translation.Reachability

/-!
# Depth limits that no pointer meets

A call is made for a part of the gloss at hand, which is lower, or for the gloss of a lexeme that is
not being translated yet.  So the lexemes on a path are distinct lexemes of the index, and there are
no more of them than entries, whether or not lexemes refer to each other in cycles.

Every step adds a level to the depth.  The steps within one gloss are paid for by its height, and a
step to a lexeme by one more level for each hop.  Hence the depth of a call and the height of its
gloss together never exceed the height of the first gloss and, for each lexeme on the path, one
level more than the tallest entry.  A pointer that is followed leaves room on its path for one hop
more, so that it is met strictly below the sum over all entries.  Limits from there on stop no
pointer, and all of them give the same translation.
-/

namespace Interlinear

/-- The number of levels above the lowest leaf, where a pointer is a leaf. -/
def Gloss.height (gloss : Gloss) : Nat :=
  gloss.heightOver fun _ => 0

namespace Index

/-- The lexemes that can be under translation at one time: distinct ones of the index. -/
structure IsPath (index : Index) (path : List String) : Prop where
  nodup : path.Nodup
  present : ∀ id ∈ path, (index.get? id).isSome

variable {index : Index} {path : List String}

theorem mem_ids_of_isSome {id : String} (h : (index.get? id).isSome) : id ∈ index.ids := by
  obtain ⟨gloss, hfound⟩ := Option.isSome_iff_exists.mp h
  exact List.mem_map.mpr ⟨(id, gloss), mem_of_lookup hfound, rfl⟩

theorem isPath_nil (index : Index) : index.IsPath [] :=
  ⟨List.nodup_nil, by simp⟩

theorem IsPath.concat (h : index.IsPath path) {id : String} (hid : (index.get? id).isSome)
    (hnew : id ∉ path) : index.IsPath (path ++ [id]) where
  nodup := by
    rw [← List.concat_eq_append, List.nodup_concat]
    exact ⟨hnew, h.nodup⟩
  present := by
    intro other hother
    rcases List.mem_append.mp hother with hother | hother
    · exact h.present other hother
    · obtain rfl := List.mem_singleton.mp hother
      exact hid

theorem IsPath.length_le_size (h : index.IsPath path) : path.length ≤ index.size := by
  have hsubset : path ⊆ index.ids := fun id hid => mem_ids_of_isSome (h.present id hid)
  have hlength : index.ids.length = index.size := List.length_map Prod.fst
  rw [← hlength]
  exact h.nodup.length_le_of_subset hsubset

end Index

namespace Translator

variable {translator : Translator}

/-- A call goes one level down: to a lower part of its gloss, or along a pointer to a lexeme that is
not on the path. -/
theorem Calls.lower_or_hop {caller callee : Call} (h : translator.Calls caller callee) :
    callee.depth = caller.depth + 1 ∧
      ((callee.path = caller.path ∧ callee.gloss.height < caller.gloss.height) ∨
        ∃ id, caller.gloss = .pointer id ∧ callee.path = caller.path ++ [id] ∧
          translator.index.get? id = some callee.gloss ∧ id ∉ caller.path ∧
            caller.depth < translator.maxDepth) := by
  cases h with
  | followed hfound hpath hdepth => exact ⟨rfl, .inr ⟨_, rfl, rfl, hfound, hpath, hdepth⟩⟩
  | stem => exact ⟨rfl, .inl ⟨rfl, Nat.lt_succ_self _⟩⟩
  | @first first others path depth =>
      have hmem : first ∈ first :: others := by simp
      exact ⟨rfl, .inl ⟨rfl, Gloss.height_lt_heightOfAll (fun _ => 0) hmem⟩⟩
  | @next first gloss before after joined path depth hjoined =>
      have hmem : gloss ∈ first :: (before ++ gloss :: after) := by simp
      exact ⟨rfl, .inl ⟨rfl, Gloss.height_lt_heightOfAll (fun _ => 0) hmem⟩⟩

theorem Calls.isPath {caller callee : Call} (h : translator.Calls caller callee)
    (hcaller : translator.index.IsPath caller.path) : translator.index.IsPath callee.path := by
  obtain ⟨-, ⟨hpath, -⟩ | ⟨id, -, hpath, hfound, hnew, -⟩⟩ := h.lower_or_hop
  · rw [hpath]
    exact hcaller
  · rw [hpath]
    exact hcaller.concat (by simp [hfound]) hnew

theorem Reaches.isPath {caller callee : Call} (h : translator.Reaches caller callee)
    (hcaller : translator.index.IsPath caller.path) : translator.index.IsPath callee.path := by
  induction h with
  | refl => exact hcaller
  | tail _ hcalls ih => exact hcalls.isPath ih

/-- The depth of a call is paid for by the height of the first gloss and the hops so far, where a
hop pays for itself and for the tallest entry. -/
def Call.Accounted (start : Gloss) (tallest : Nat) (call : Call) : Prop :=
  call.depth + call.gloss.height ≤ start.height + call.path.length * (tallest + 1)

theorem Call.accounted_initial (start : Gloss) (tallest : Nat) :
    Call.Accounted start tallest ⟨start, [], 0⟩ := by
  simp [Call.Accounted]

theorem Call.Accounted.step {start : Gloss} {tallest : Nat} {caller callee : Call}
    (htallest : ∀ id gloss, translator.index.get? id = some gloss → gloss.height ≤ tallest)
    (hcaller : caller.Accounted start tallest) (h : translator.Calls caller callee) :
    callee.Accounted start tallest := by
  unfold Call.Accounted at hcaller ⊢
  obtain ⟨hdepth, ⟨hpath, hlower⟩ | ⟨id, hgloss, hpath, hfound, -, -⟩⟩ := h.lower_or_hop
  · rw [hdepth, hpath]
    omega
  · have hheight := htallest id callee.gloss hfound
    rw [hdepth, hpath, List.length_append, List.length_singleton, Nat.succ_mul]
    omega

theorem Call.Accounted.run {start : Gloss} {tallest : Nat} {caller callee : Call}
    (htallest : ∀ id gloss, translator.index.get? id = some gloss → gloss.height ≤ tallest)
    (hcaller : caller.Accounted start tallest) (h : translator.Reaches caller callee) :
    callee.Accounted start tallest := by
  induction h with
  | refl => exact hcaller
  | tail _ hcalls ih => exact ih.step htallest hcalls

/-- A pointer that is not on its path leaves an entry of the index for a further hop. -/
theorem Call.Accounted.depth_lt {start : Gloss} {tallest : Nat} {call : Call} {index : Index}
    {id : String} (h : call.Accounted start tallest) (hpath : index.IsPath call.path)
    (hid : (index.get? id).isSome) (hnew : id ∉ call.path) :
    call.depth < start.height + index.size * (tallest + 1) := by
  have hroom : call.path.length + 1 ≤ index.size := by
    simpa using (hpath.concat hid hnew).length_le_size
  have hhops : (call.path.length + 1) * (tallest + 1) ≤ index.size * (tallest + 1) :=
    Nat.mul_le_mul_right _ hroom
  rw [Nat.succ_mul] at hhops
  unfold Call.Accounted at h
  omega

/-- The call is for a pointer that only the depth limit keeps from being followed. -/
def StoppedByDepth (translator : Translator) (call : Call) : Prop :=
  ∃ id, call.gloss = .pointer id ∧ (translator.index.get? id).isSome ∧ id ∉ call.path ∧
    translator.maxDepth ≤ call.depth

/-- Pointers that could be followed are met above a depth only. -/
def StaysAbove (translator : Translator) (limit : Nat) (call : Call) : Prop :=
  ∀ id path depth, translator.Reaches call ⟨.pointer id, path, depth⟩ →
    (translator.index.get? id).isSome → id ∉ path → depth < limit

theorem StaysAbove.callee {limit : Nat} {caller callee : Call}
    (hcaller : translator.StaysAbove limit caller) (h : translator.Calls caller callee) :
    translator.StaysAbove limit callee :=
  fun id path depth hreaches => hcaller id path depth (Relation.ReflTransGen.head h hreaches)

theorem staysAbove_of_height_le {gloss : Gloss} {tallest limit : Nat}
    (htallest : ∀ id gloss, translator.index.get? id = some gloss → gloss.height ≤ tallest)
    (hlimit : gloss.height + translator.index.size * (tallest + 1) ≤ limit) :
    translator.StaysAbove limit ⟨gloss, [], 0⟩ := by
  intro id path depth hreaches hid hnew
  have haccounted := (Call.accounted_initial gloss tallest).run htallest hreaches
  have hpath := hreaches.isPath (Index.isPath_nil translator.index)
  have hdepth : depth < gloss.height + translator.index.size * (tallest + 1) :=
    haccounted.depth_lt hpath hid hnew
  omega

theorem StaysAbove.translateAt_eq {call : Call}
    (h : translator.StaysAbove translator.maxDepth call) (other : Translator)
    (hindex : other.index = translator.index)
    (hmorphology : other.morphology = translator.morphology)
    (hother : translator.StaysAbove other.maxDepth call) :
    translator.translateAt call.path call.depth call.gloss =
      other.translateAt call.path call.depth call.gloss := by
  refine translateAt_eq_of_related translator (by rw [hmorphology])
    (fun call path depth => call.path = path ∧ call.depth = depth ∧
      translator.StaysAbove translator.maxDepth call ∧ translator.StaysAbove other.maxDepth call)
    ?_ ?_ ?_ call ⟨rfl, rfl, h, hother⟩
  · rintro gloss part path _ depth _ ⟨rfl, rfl, hcaller, hotherCaller⟩ hcalls
    exact ⟨rfl, rfl, hcaller.callee hcalls, hotherCaller.callee hcalls⟩
  · rintro stem names path _ depth _ -
    rw [hmorphology]
    exact fun _ => rfl
  · rintro id path _ depth _ ⟨rfl, rfl, hcaller, hotherCaller⟩ hbelow
    refine translateAt_pointer_congr translator (by rw [hindex]) ?_ ?_
    · intro hid hnew
      have hlimit := hcaller id path depth .refl hid hnew
      have hotherLimit := hotherCaller id path depth .refl hid hnew
      exact ⟨fun hstop => absurd hlimit (Nat.not_lt.mpr hstop),
        fun hstop => absurd hotherLimit (Nat.not_lt.mpr hstop)⟩
    · intro referent hcalls
      exact hbelow hcalls ⟨rfl, rfl, hcaller.callee hcalls, hotherCaller.callee hcalls⟩

/-- If no entry of an index is taller than `tallest`, then limits from the height of a gloss and one
level more than `tallest` for each entry on stop no pointer below that gloss, and all of them give
it the same translation. -/
theorem translate_eq_of_height_le (index : Index) (morphology : Morphology) (gloss : Gloss)
    (tallest limit otherLimit : Nat)
    (htallest : ∀ id referent, index.get? id = some referent → referent.height ≤ tallest)
    (hpos : 0 < limit) (hotherPos : 0 < otherLimit)
    (hlimit : gloss.height + index.size * (tallest + 1) ≤ limit)
    (hotherLimit : gloss.height + index.size * (tallest + 1) ≤ otherLimit) :
    (∀ call, Reaches ⟨index, morphology, limit, hpos⟩ ⟨gloss, [], 0⟩ call →
        ¬ StoppedByDepth ⟨index, morphology, limit, hpos⟩ call) ∧
      translate ⟨index, morphology, limit, hpos⟩ gloss =
        translate ⟨index, morphology, otherLimit, hotherPos⟩ gloss := by
  have hstays : ∀ {bound : Nat}, gloss.height + index.size * (tallest + 1) ≤ bound →
      StaysAbove ⟨index, morphology, limit, hpos⟩ bound ⟨gloss, [], 0⟩ :=
    fun hbound => staysAbove_of_height_le htallest hbound
  constructor
  · rintro ⟨_, path, depth⟩ hreaches ⟨id, rfl, hid, hnew, hstopped⟩
    have hdepth := hstays hlimit id path depth hreaches hid hnew
    exact absurd hstopped (Nat.not_le_of_lt hdepth)
  · exact (hstays hlimit).translateAt_eq ⟨index, morphology, otherLimit, hotherPos⟩ rfl rfl
      (hstays hotherLimit)

def seesaw : Index :=
  .mk (.mk [("a", .compound [.pointer "b", .literal "x"]),
    ("b", .compound [.literal "y", .pointer "a"])])

theorem seesaw_height_le (id : String) (referent : Gloss)
    (hfound : seesaw.get? id = some referent) : referent.height ≤ 1 := by
  have hentries : ∀ entry ∈ seesaw.glosses.entries, entry.2.height ≤ 1 := by decide +kernel
  exact hentries (id, referent) (mem_of_lookup hfound)

theorem translate_eq_of_height_le_seesaw :
    translate ⟨seesaw, ⟨⟨[]⟩, []⟩, 4, by decide⟩ (.pointer "a") = .ok "y(a#CYCLE??)x" ∧
      translate ⟨seesaw, ⟨⟨[]⟩, []⟩, 4, by decide⟩ (.pointer "a") =
        translate ⟨seesaw, ⟨⟨[]⟩, []⟩, 9, by decide⟩ (.pointer "a") := by
  constructor
  · cbv
  · exact (translate_eq_of_height_le seesaw ⟨⟨[]⟩, []⟩ (.pointer "a") 1 4 9 seesaw_height_le
      (by decide) (by decide) (by decide +kernel) (by decide +kernel)).2

end Translator

end Interlinear

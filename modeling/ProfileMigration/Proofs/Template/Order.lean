/-
  ProfileMigration.Proofs.Template.Order

  The order of names in converted parcels:

    Template.ordered_assemble   -- assembled field trees are ordered
    Template.ordered_content    -- so is what every template makes of any definition
    ordered_of_convert          -- and hence every converted parcel

  Values are taken over from a definition one by one, and groups never, so that a definition
  without any order gives ordered parcels as well.
-/
import ProfileMigration.Proofs.Field.Order
import ProfileMigration.Proofs.Template.Reading
import ProfileMigration.Proofs.Template.Steadiness

namespace ProfileMigration

namespace Template

variable {ctx : Context} {values data : FieldMap}

/-! ## Assembling -/

theorem ordered_put (h : data.Ordered) (path : String) (v : TypedValue) :
    (put data path v).Ordered :=
  h.set (Field.ordered_value v) path

theorem ordered_assemble (entries : List (String × Option TypedValue)) :
    (assemble entries).Ordered := by
  refine List.foldlRecOn (motive := FieldMap.Ordered) entries _ FieldMap.ordered_nil ?_
  rintro data hdata ⟨path, v?⟩ _
  cases v? with
  | none => exact hdata
  | some v => exact ordered_put hdata path v

theorem ordered_withItems (h : data.Ordered) {rows : List FieldMap}
    (hrows : ∀ row ∈ rows, FieldMap.Ordered row) (name : String) :
    (withItems data name rows).Ordered := by
  rw [withItems]
  split
  · exact h
  · exact h.insert (Field.ordered_items_iff.mpr hrows) name

theorem ordered_reference (category : Category) (origin : String) :
    Yields Field.Ordered (reference ctx category origin) := by
  rw [reference]
  cases ctx.resolve category origin with
  | none => exact .error _
  | some id =>
    exact .ok (Field.ordered_group_iff.mpr (FieldMap.ordered_singleton _ (Field.ordered_value _)))

/-! ## System, VPNs and interfaces -/

theorem ordered_basic : Yields FieldMap.Ordered (basic values) := by
  rw [basic]
  exact .bind_any fun _ => .bind_any fun _ => .bind_any fun _ => .bind_any fun _ =>
    .pure (ordered_assemble _)

theorem ordered_banner : Yields FieldMap.Ordered (banner values) := .pure (ordered_assemble _)

theorem ordered_logServer (server : FieldMap) : Yields FieldMap.Ordered (logServer server) := by
  rw [logServer]
  exact .bind_any fun _ => .bind_any fun _ => .bind_any fun _ => .pure (ordered_assemble _)

theorem ordered_logging : Yields FieldMap.Ordered (logging values) := by
  rw [logging]
  refine .bind_any fun _ => .bind_any fun _ => .bind_any fun _ => ?_
  exact (Yields.mapM fun server _ => ordered_logServer server).bind fun servers hservers =>
    .pure (ordered_withItems (ordered_assemble _) hservers _)

theorem ordered_timeServer (server : FieldMap) : Yields FieldMap.Ordered (timeServer server) := by
  rw [timeServer]
  exact .bind_any fun _ => .bind_any fun _ => .bind_any fun _ => .bind_any fun _ =>
    .bind_any fun _ => .pure (ordered_assemble _)

theorem ordered_timeKey (key : FieldMap) : Yields FieldMap.Ordered (timeKey key) := by
  rw [timeKey]
  exact .bind_any fun _ => .bind_any fun _ => .pure (ordered_assemble _)

theorem ordered_ntp : Yields FieldMap.Ordered (ntp values) := by
  rw [ntp]
  refine (Yields.mapM fun server _ => ordered_timeServer server).bind fun servers hservers => ?_
  refine (Yields.mapM fun key _ => ordered_timeKey key).bind fun keys hkeys => ?_
  refine .bind_any fun _ => .bind_any fun _ => ?_
  dsimp only
  split
  · exact .pure ((ordered_assemble _).insert (Field.ordered_items_iff.mpr hservers) _)
  · exact .pure (((ordered_assemble _).insert (Field.ordered_items_iff.mpr hservers) _).set
      (Field.ordered_items_iff.mpr hkeys) _)

theorem ordered_bfdColor (color : FieldMap) : Yields FieldMap.Ordered (bfdColor color) := by
  rw [bfdColor]
  exact .bind_any fun _ => .bind_any fun _ => .bind_any fun _ => .bind_any fun _ =>
    .bind_any fun _ => .pure (ordered_assemble _)

theorem ordered_bfd : Yields FieldMap.Ordered (bfd values) := by
  rw [bfd]
  refine .bind_any fun _ => .bind_any fun _ => .bind_any fun _ => ?_
  exact (Yields.mapM fun color _ => ordered_bfdColor color).bind fun colors hcolors =>
    .pure (ordered_withItems (ordered_assemble _) hcolors _)

theorem ordered_omp : Yields FieldMap.Ordered (omp values) := by
  rw [omp]
  exact .bind_any fun _ => .bind_any fun _ => .bind_any fun _ => .bind_any fun _ =>
    .bind_any fun _ => .bind_any fun _ => .bind_any fun _ => .pure (ordered_assemble _)

theorem ordered_nextHop (hop : FieldMap) : Yields FieldMap.Ordered (nextHop hop) := by
  rw [nextHop]
  exact .bind_any fun _ => .bind_any fun _ => .pure (ordered_assemble _)

theorem ordered_staticRoute (route : FieldMap) : Yields FieldMap.Ordered (staticRoute route) := by
  rw [staticRoute]
  refine .bind_any fun _ => .bind_any fun masked => ?_
  dsimp only
  split
  · exact (Yields.mapM fun hop _ => ordered_nextHop hop).bind fun hops hhops =>
      .pure ((ordered_assemble _).set (Field.ordered_items_iff.mpr hhops) _)
  · split
    · exact .bind_any fun null => .pure (ordered_put (ordered_assemble _) _ null)
    · exact .error _

theorem ordered_withNameServer (hdata : data.Ordered) (dns : FieldMap) :
    Yields FieldMap.Ordered (withNameServer data dns) := by
  rw [withNameServer]
  exact .bind_any fun address => .pure (ordered_put hdata _ _)

theorem ordered_vpn : Yields (fun made => FieldMap.Ordered made.2) (vpn values) := by
  rw [vpn]
  refine .bind_any fun _ => .bind_any fun type => ?_
  refine (Yields.foldlM (fun dns _ data hdata => ordered_withNameServer hdata dns)
    (ordered_assemble _)).bind fun data hdata => ?_
  exact (Yields.mapM fun route _ => ordered_staticRoute route).bind fun routes hroutes =>
    .pure (ordered_withItems hdata hroutes _)

theorem ordered_ethernet : Yields FieldMap.Ordered (ethernet values) := by
  rw [ethernet]
  exact .bind_any fun _ => .bind_any fun _ => .bind_any fun _ => .bind_any fun _ =>
    .bind_any fun _ => .pure (ordered_assemble _)

/-! ## Policy lists -/

theorem ordered_listEntry (type : ParcelType) (entry : FieldMap) :
    Yields FieldMap.Ordered (listEntry type entry) := by
  have hitem : ∀ (name : String) (x : Converted String),
      Yields FieldMap.Ordered (x.map (textItem name)) := fun name x =>
    (Yields.any x).map fun s _ => FieldMap.ordered_singleton name (Field.ordered_value _)
  unfold listEntry
  split
  · exact .bind_any fun _ => .pure (ordered_assemble _)
  · exact .bind_any fun _ => .pure (ordered_assemble _)
  · exact hitem _ _
  · exact hitem _ _
  · exact hitem _ _
  · exact hitem _ _
  · split
    · exact hitem _ _
    · exact hitem _ _
  · exact .error _

theorem ordered_policyList : Yields (fun made => FieldMap.Ordered made.2) (policyList values) := by
  rw [policyList]
  refine .bind_any fun type => ?_
  dsimp only
  split
  · exact .error _
  · refine Yields.bind (P := FieldMap.Ordered) ?_ fun data hdata => .pure hdata
    rw [listData]
    split
    · exact .bind_any fun _ => .pure (FieldMap.ordered_singleton _ (Field.ordered_value _))
    · exact (Yields.mapM fun entry _ => ordered_listEntry type entry).bind fun rows hrows =>
        .pure (FieldMap.ordered_singleton _ (Field.ordered_items_iff.mpr hrows))

/-! ## Routing -/

theorem ordered_withRoutePolicies (slots : PolicySlots) (values : FieldMap)
    (hdata : data.Ordered) :
    Yields FieldMap.Ordered (withRoutePolicies ctx slots values data) := by
  refine Yields.foldlM (fun policy _ data hdata => ?_) hdata
  rw [withRoutePolicy]
  refine .bind_any fun _ => .bind_any fun _ => .bind_any fun slot => ?_
  split
  · exact .error _
  · exact (ordered_reference _ _).bind fun f hf => .pure (hdata.set hf slot)

theorem ordered_neighbor (neighbor : FieldMap) :
    Yields FieldMap.Ordered (Template.neighbor ctx neighbor) := by
  rw [Template.neighbor]
  refine .bind_any fun _ => .bind_any fun _ => .bind_any fun _ => .bind_any fun _ => ?_
  refine (Yields.mapM fun family _ => ?_).bind fun rows hrows =>
    .pure (ordered_withItems (ordered_assemble _) hrows _)
  rw [addressFamily]
  exact .bind_any fun _ => ordered_withRoutePolicies _ _ (ordered_assemble _)

theorem ordered_bgp : Yields FieldMap.Ordered (bgp ctx values) := by
  rw [bgp]
  refine .bind_any fun _ => ?_
  exact (Yields.mapM fun neighbor _ => ordered_neighbor neighbor).bind fun rows hrows =>
    .pure (ordered_withItems (ordered_assemble _) hrows _)

theorem ordered_area (values : FieldMap) : Yields FieldMap.Ordered (area values) := by
  rw [area]
  refine .bind_any fun _ => (Yields.mapM fun interface _ => ?_).bind fun rows hrows =>
    .pure ((ordered_assemble _).insert (Field.ordered_items_iff.mpr hrows) _)
  rw [areaInterface]
  exact .bind_any fun _ => .bind_any fun _ => .bind_any fun _ => .pure (ordered_assemble _)

theorem ordered_ospf : Yields FieldMap.Ordered (ospf ctx values) := by
  rw [ospf]
  refine .bind_any fun _ => .bind_any fun _ => .bind_any fun _ => ?_
  exact (Yields.mapM fun values _ => ordered_area values).bind fun areas hareas =>
    ordered_withRoutePolicies _ _ (ordered_withItems (ordered_assemble _) hareas _)

theorem ordered_withMatch (hdata : data.Ordered) (entry : FieldMap) :
    Yields FieldMap.Ordered (withMatch ctx data entry) := by
  rw [withMatch]
  refine .bind_any fun field => ?_
  cases listSlot? field with
  | some slot =>
    exact .bind_any fun _ => (ordered_reference _ _).bind fun f hf => .pure (hdata.set hf slot)
  | none =>
    dsimp only
    split
    · exact .bind_any fun v => .pure (ordered_put hdata _ v)
    · exact .error _

theorem ordered_withAction (hdata : data.Ordered) (action : FieldMap) :
    Yields FieldMap.Ordered (withAction data action) := by
  rw [withAction]
  refine .bind_any fun type => ?_
  split
  · refine Yields.foldlM (fun parameter _ data hdata => ?_) hdata
    rw [withParameter]
    refine .bind_any fun field => ?_
    split
    · exact .bind_any fun v => .pure (ordered_put hdata _ v)
    · split
      · exact .bind_any fun v => .pure (ordered_put hdata _ v)
      · exact .error _
  · exact .error _

theorem ordered_withSingle (hdata : data.Ordered) {row : FieldMap} (hrow : row.Ordered)
    (name : String) : (withSingle data name row).Ordered := by
  refine ordered_withItems hdata ?_ name
  split
  · exact List.forall_mem_nil _
  · exact List.forall_mem_singleton.mpr hrow

theorem ordered_policySequence (sequence : FieldMap) :
    Yields FieldMap.Ordered (policySequence ctx sequence) := by
  rw [policySequence]
  refine .bind_any fun _ => ?_
  refine (Yields.foldlM (fun entry _ data hdata => ordered_withMatch hdata entry)
    FieldMap.ordered_nil).bind fun entries hentries => ?_
  refine (Yields.foldlM (fun action _ data hdata => ordered_withAction hdata action)
    FieldMap.ordered_nil).bind fun sets hsets => ?_
  exact .pure (ordered_withSingle (ordered_withSingle (ordered_assemble _) hentries _) hsets _)

theorem ordered_routePolicy : Yields FieldMap.Ordered (routePolicy ctx values) := by
  rw [routePolicy]
  exact (Yields.mapM fun sequence _ => ordered_policySequence sequence).bind fun rows hrows =>
    .pure ((ordered_assemble _).insert (Field.ordered_items_iff.mpr hrows) _)

/-! ## Every template -/

/-- What a template makes of any definition is ordered. -/
theorem ordered_content : ∀ t ∈ all, ∀ ctx values,
    Yields (fun made => FieldMap.Ordered made.2) (t.content ctx values) := by
  -- Most templates make parcels of one type
  have hone : ∀ (type : ParcelType) {x : Converted FieldMap}, Yields FieldMap.Ordered x →
      Yields (fun made : ParcelType × FieldMap => made.2.Ordered) (x.map (type, ·)) :=
    fun type x hx => hx.map fun data hdata => hdata
  simp only [all, List.forall_mem_cons]
  refine ⟨?basic, ?banner, ?logging, ?ntp, ?bfd, ?omp, ?vpn, ?ethernet, ?bgp, ?ospf, ?policy,
    ?list, by simp⟩
  case basic => exact fun _ _ => hone .basic ordered_basic
  case banner => exact fun _ _ => hone .banner ordered_banner
  case logging => exact fun _ _ => hone .logging ordered_logging
  case ntp => exact fun _ _ => hone .ntp ordered_ntp
  case bfd => exact fun _ _ => hone .bfd ordered_bfd
  case omp => exact fun _ _ => hone .omp ordered_omp
  case vpn => exact fun _ _ => ordered_vpn
  case ethernet => exact fun _ _ => hone .ethernet ordered_ethernet
  case bgp => exact fun _ _ => hone .bgp ordered_bgp
  case ospf => exact fun _ _ => hone .ospf ordered_ospf
  case policy => exact fun _ _ => hone .routePolicy ordered_routePolicy
  case list => exact fun _ _ => ordered_policyList

end Template

/-- Every converted parcel is ordered. -/
theorem ordered_of_convert {o : LegacyObject} {id : Uuid} {ctx : Context} {p : Parcel}
    (h : convert o id ctx = .ok p) : p.data.Ordered := by
  obtain ⟨t, type, data, ht, hcontent, rfl⟩ := convert_eq_ok_iff.mp h
  exact Template.ordered_content t (List.mem_of_find?_eq_some ht) _ _ _ hcontent

end ProfileMigration

import SchemaDiagram.Proofs.Coherence

/-!
Coherence under changes. For each change of a coherent diagram it is said what it takes for the
outcome to be coherent again: nothing, or that what is put in place goes together with the columns
and names that are there. Edges follow the tables at their ends.
-/

set_option autoImplicit false

namespace SchemaDiagram

open Text (isBlank)

theorem Edge.Coherent.mono {nodes nodes' : List Node} {e : Edge} (h : e.Coherent nodes)
    (kept : ∀ m ∈ nodes, m.id = e.source ∨ m.id = e.target → m ∈ nodes') : e.Coherent nodes' := by
  obtain ⟨legal, ⟨a, ha, ia, source⟩, ⟨b, hb, ib, target⟩, apart⟩ := h
  exact ⟨legal, ⟨a, kept a ha (.inl ia), ia, source⟩, ⟨b, kept b hb (.inr ib), ib, target⟩, apart⟩

namespace Diagram

variable {d d' : Diagram}

theorem Tabled.modified {named : Prop} (h : d.Tabled) (m : Modified named d d') : d'.Tabled := by
  cases m with
  | newTable name p fresh =>
    refine ⟨fun m hm => ?_, nodup_append_fresh h.ids fresh⟩
    rcases List.mem_append.mp hm with hm | hm
    · exact h.tables m hm
    · rw [List.mem_singleton.mp hm]
      rfl
  | mapNode id same =>
    refine ⟨List.forall_mem_map.mpr fun n hn => ?_, ?_⟩
    · split
      · rw [(same n).2]
        exact h.tables n hn
      · exact h.tables n hn
    · rw [ids_mapNode fun n => (same n).1]
      exact h.ids
  | detach =>
    exact ⟨fun m hm => h.tables m (List.mem_of_mem_filter hm),
      h.ids.sublist (List.filter_sublist.map Node.id)⟩
  | newEdge | filterEdges | mapEdges => exact ⟨h.tables, h.ids⟩

theorem mem_putData (h : d.Tabled) {n m : Node} (hn : n ∈ d.nodes) (data : NodeData) :
    m ∈ (d.putData n.id data).nodes ↔ m = { n with data := data } ∨ m ∈ d.nodes ∧ m ≠ n := by
  unfold putData mapNode
  rw [List.mem_map]
  constructor
  · rintro ⟨k, hk, rfl⟩
    by_cases same : k.id = n.id
    · rw [if_pos same, h.eq_of_id hk hn same]
      exact .inl rfl
    · rw [if_neg same]
      exact .inr ⟨hk, fun he => same (congrArg Node.id he)⟩
  · rintro (rfl | ⟨hm, other⟩)
    · exact ⟨n, hn, if_pos rfl⟩
    · exact ⟨m, hm, if_neg fun same => other (h.eq_of_id hm hn same)⟩

theorem coherent_putData (tabled : d.Tabled) (h : d.Coherent) {n : Node} (hn : n ∈ d.nodes)
    (data : NodeData) (es : List Edge) :
    Coherent ⟨(d.putData n.id data).nodes, es⟩ ↔
      Node.Coherent { n with data := data } ∧
        (∀ m ∈ d.nodes, m.data.label = data.label → m = n) ∧
        ∀ e ∈ es, ¬ e.Loose → e.Coherent (d.putData n.id data).nodes := by
  have mem {m : Node} := mem_putData (m := m) tabled hn data
  have put : { n with data := data } ∈ (d.putData n.id data).nodes := mem.mpr (.inl rfl)
  constructor
  · rintro ⟨nodes, names, edges⟩
    refine ⟨nodes _ put, fun m hm same => ?_, edges⟩
    by_contra other
    have he := names m (mem.mpr (.inr ⟨hm, other⟩)) _ put same
    exact other (tabled.eq_of_id hm hn (by rw [he]))
  · rintro ⟨own, names, edges⟩
    refine ⟨fun m hm => ?_, fun a ha b hb same => ?_, edges⟩
    · rcases mem.mp hm with rfl | ⟨hm, -⟩
      · exact own
      · exact h.nodes m hm
    · rcases mem.mp ha with rfl | ⟨ha, ha'⟩
      · rcases mem.mp hb with rfl | ⟨hb, hb'⟩
        · rfl
        · exact absurd (names b hb same.symm) hb'
      · rcases mem.mp hb with rfl | ⟨hb, hb'⟩
        · exact absurd (names a ha same) ha'
        · exact h.names a ha b hb same

theorem coherent_putColumns (tabled : d.Tabled) (h : d.Coherent) {n : Node} (hn : n ∈ d.nodes)
    (cs : List NodeColumn) (es : List Edge) :
    Coherent ⟨(d.putData n.id { n.data with columns := cs }).nodes, es⟩ ↔
      Node.Coherent { n with data := { n.data with columns := cs } } ∧
        ∀ e ∈ es, ¬ e.Loose →
          e.Coherent (d.putData n.id { n.data with columns := cs }).nodes := by
  rw [coherent_putData tabled h hn]
  refine and_congr_right fun _ => and_iff_right ?_
  exact fun m hm same => h.names m hm n hn same

theorem coherent_edges (h : d.Coherent) (es : List Edge) :
    Coherent { d with edges := es } ↔ ∀ e ∈ es, ¬ e.Loose → e.Coherent d.nodes :=
  ⟨fun c => c.edges, fun edges => ⟨h.nodes, h.names, edges⟩⟩

theorem end_putData (tabled : d.Tabled) {n : Node} (hn : n ∈ d.nodes) {data : NodeData}
    {id column column' : String} (own : n.id = id → n.Offers column →
      Node.Offers { n with data := data } column') (other : n.id ≠ id → column' = column)
    (h : ∃ m ∈ d.nodes, m.id = id ∧ m.Offers column) :
    ∃ m ∈ (d.putData n.id data).nodes, m.id = id ∧ m.Offers column' := by
  obtain ⟨m, hm, hi, offers⟩ := h
  by_cases same : m = n
  · rw [same] at hi offers
    exact ⟨_, (mem_putData tabled hn data).mpr (.inl rfl), hi, own hi offers⟩
  · have apart : n.id ≠ id := fun he => same (tabled.eq_of_id hm hn (hi.trans he.symm))
    refine ⟨m, (mem_putData tabled hn data).mpr (.inr ⟨hm, same⟩), hi, ?_⟩
    rw [other apart]
    exact offers

theorem edge_putData (tabled : d.Tabled) {n : Node} (hn : n ∈ d.nodes) {data : NodeData}
    (titles : ∀ c ∈ n.data.columns, ∃ b ∈ data.columns, b.title = c.title) {e : Edge}
    (h : e.Coherent d.nodes) : e.Coherent (d.putData n.id data).nodes := by
  have own : ∀ column, n.Offers column → Node.Offers { n with data := data } column := by
    intro column offers hne
    obtain ⟨c, hc, rfl⟩ := offers hne
    exact titles c hc
  exact ⟨h.legal, end_putData tabled hn (fun _ => own _) (fun _ => rfl) h.source,
    end_putData tabled hn (fun _ => own _) (fun _ => rfl) h.target, h.apart⟩

theorem coherent_renamed (tabled : d.Tabled) (h : d.Coherent) {n : Node} (hn : n ∈ d.nodes)
    (s : String) :
    (d.putData n.id { n.data with label := .text s }).Coherent ↔
      isBlank s = false ∧ ∀ m ∈ d.nodes, m.data.label = .text s → m = n := by
  refine (coherent_putData tabled h hn _ d.edges).trans ?_
  have edges : ∀ e ∈ d.edges, ¬ e.Loose →
      e.Coherent (d.putData n.id { n.data with label := .text s }).nodes := by
    intro e he tight
    refine edge_putData tabled hn ?_ (h.edges e he tight)
    exact fun c hc => ⟨c, hc, rfl⟩
  obtain ⟨-, inhabited, titled, typed, distinct⟩ := h.nodes n hn
  constructor
  · rintro ⟨⟨⟨name, text, named⟩, -⟩, names, -⟩
    cases text
    exact ⟨named, names⟩
  · rintro ⟨named, names⟩
    exact ⟨⟨⟨s, rfl, named⟩, inhabited, titled, typed, distinct⟩, names, edges⟩

theorem coherent_added (tabled : d.Tabled) (h : d.Coherent) {n : Node} (hn : n ∈ d.nodes)
    (c : NodeColumn) :
    (d.putData n.id { n.data with columns := n.data.columns ++ [c] }).Coherent ↔
      isBlank c.title = false ∧ isBlank c.type = false ∧ ∀ b ∈ n.data.columns, b.title ≠ c.title := by
  refine (coherent_putColumns tabled h hn _ d.edges).trans ?_
  have edges : ∀ e ∈ d.edges, ¬ e.Loose →
      e.Coherent (d.putData n.id { n.data with columns := n.data.columns ++ [c] }).nodes :=
    fun e he tight => edge_putData tabled hn
      (fun b hb => ⟨b, List.mem_append_left _ hb, rfl⟩) (h.edges e he tight)
  refine (and_iff_left edges).trans ?_
  obtain ⟨named, inhabited, titled, typed, distinct⟩ := h.nodes n hn
  constructor
  · rintro ⟨-, -, titled', typed', distinct'⟩
    have last : c ∈ n.data.columns ++ [c] := List.mem_append_right _ List.mem_cons_self
    refine ⟨titled' c last, typed' c last, fun b hb same => ?_⟩
    rw [List.map_append, List.nodup_append] at distinct'
    exact distinct'.2.2 _ (List.mem_map_of_mem hb) _ List.mem_cons_self same
  · rintro ⟨title, type, other⟩
    refine ⟨named, by simp, ?_, ?_, ?_⟩
    · exact List.forall_mem_append.mpr ⟨titled, by simpa using title⟩
    · exact List.forall_mem_append.mpr ⟨typed, by simpa using type⟩
    · refine nodup_append_fresh distinct fun hm => ?_
      obtain ⟨b, hb, same⟩ := List.mem_map.mp hm
      exact other b hb same

theorem not_mem_columnsAt {e : Edge} {id column : String} :
    column ∉ columnsAt e id ↔
      (e.source = id → column ≠ e.sourceColumn) ∧ (e.target = id → column ≠ e.targetColumn) := by
  unfold columnsAt Edge.sourceColumn Edge.targetColumn
  rw [List.mem_append, not_or]
  refine and_congr ?_ ?_ <;> split <;> simp_all

theorem coherent_removed (tabled : d.Tabled) (h : d.Coherent) {n : Node} (hn : n ∈ d.nodes)
    {c : NodeColumn} (hc : c ∈ n.data.columns) :
    (filterEdges (fun e => c.title ∉ columnsAt e n.id)
      (d.putData n.id
        { n.data with columns := n.data.columns.filter fun b => b.title ≠ c.title })).Coherent ↔
      ∃ b ∈ n.data.columns, b ≠ c := by
  refine (coherent_putColumns tabled h hn _ _).trans ?_
  obtain ⟨named, inhabited, titled, typed, distinct⟩ := h.nodes n hn
  have mem : ∀ b, b ∈ (n.data.columns.filter fun b => b.title ≠ c.title) ↔
      b ∈ n.data.columns ∧ b ≠ c := by
    intro b
    rw [List.mem_filter, decide_eq_true_eq]
    refine and_congr_right fun hb => not_congr ⟨fun same => ?_, fun same => by rw [same]⟩
    exact List.inj_on_of_nodup_map distinct hb hc same
  have edges : ∀ e ∈ d.edges.filter (fun e => c.title ∉ columnsAt e n.id), ¬ e.Loose →
      e.Coherent (d.putData n.id
        { n.data with columns := n.data.columns.filter fun b => b.title ≠ c.title }).nodes := by
    intro e he tight
    obtain ⟨he, unnamed⟩ := List.mem_filter.mp he
    obtain ⟨source, target⟩ := not_mem_columnsAt.mp (of_decide_eq_true unnamed)
    have own : ∀ column, c.title ≠ column → n.Offers column → Node.Offers
        { n with data := { n.data with
          columns := n.data.columns.filter fun b => b.title ≠ c.title } } column := by
      intro column other offers hne
      obtain ⟨b, hb, rfl⟩ := offers hne
      exact ⟨b, (mem b).mpr ⟨hb, fun same => other (by rw [same])⟩, rfl⟩
    have old := h.edges e he tight
    exact ⟨old.legal,
      end_putData tabled hn (fun at_ => own _ (source at_.symm)) (fun _ => rfl) old.source,
      end_putData tabled hn (fun at_ => own _ (target at_.symm)) (fun _ => rfl) old.target,
      old.apart⟩
  refine (and_iff_left edges).trans ?_
  constructor
  · rintro ⟨-, left, -⟩
    obtain ⟨b, hb⟩ := List.exists_mem_of_ne_nil _ left
    exact ⟨b, (mem b).mp hb⟩
  · rintro ⟨b, hb⟩
    refine ⟨named, List.ne_nil_of_mem ((mem b).mpr hb), fun x hx => titled x ((mem x).mp hx).1,
      fun x hx => typed x ((mem x).mp hx).1, distinct.sublist (List.filter_sublist.map _)⟩

def newTitle (old new title : String) : String := if title = old then new else title

theorem newTitle_inj {old new : String} {titles : List String}
    (free : ∀ t ∈ titles, t ≠ old → t ≠ new) {x y : String} (hx : x ∈ titles) (hy : y ∈ titles)
    (same : newTitle old new x = newTitle old new y) : x = y := by
  unfold newTitle at same
  by_cases ox : x = old
  · by_cases oy : y = old
    · rw [ox, oy]
    · rw [if_pos ox, if_neg oy] at same
      exact absurd same.symm (free y hy oy)
  · by_cases oy : y = old
    · rw [if_neg ox, if_pos oy] at same
      exact absurd same (free x hx ox)
    · rwa [if_neg ox, if_neg oy] at same

/-- An edge with a column's new title in the place of the old one. -/
structure Retitled (id old new : String) (e e' : Edge) : Prop where
  source : e'.source = e.source
  target : e'.target = e.target
  label : e'.label = e.label
  sourceColumn : e'.sourceColumn =
    if e.source = id then newTitle old new e.sourceColumn else e.sourceColumn
  targetColumn : e'.targetColumn =
    if e.target = id then newTitle old new e.targetColumn else e.targetColumn

theorem retitled_retitleEdge (id old new : String) (e : Edge) :
    Retitled id old new e (retitleEdge id old new e) where
  source := rfl
  target := rfl
  label := rfl
  sourceColumn := by
    have column : (retitleEdge id old new e).sourceColumn =
        if e.source = id ∧ e.sourceColumn = old then new else e.sourceColumn := by
      unfold Edge.sourceColumn retitleEdge
      split
      · exact Handle.column_ofColumn new
      · rfl
    rw [column, newTitle, ite_and]
  targetColumn := by
    have column : (retitleEdge id old new e).targetColumn =
        if e.target = id ∧ e.targetColumn = old then new else e.targetColumn := by
      change (if e.target = id ∧ e.targetColumn = old then some new else e.targetHandle).getD "" = _
      split <;> rfl
    rw [column, newTitle, ite_and]

theorem newTitle_same (old title : String) : newTitle old old title = title := by
  unfold newTitle
  split
  · exact ‹title = old›.symm
  · rfl

theorem retitled_same (id title : String) (e : Edge) : Retitled id title title e e where
  source := rfl
  target := rfl
  label := rfl
  sourceColumn := by rw [newTitle_same, ite_self]
  targetColumn := by rw [newTitle_same, ite_self]

theorem mem_retitle {id old new : String} {e' : Edge} (h : e' ∈ (retitle id old new d).edges) :
    ∃ e ∈ d.edges, Retitled id old new e e' := by
  unfold retitle at h
  split at h
  · obtain ⟨e, he, rfl⟩ := List.mem_map.mp h
    exact ⟨e, he, retitled_retitleEdge id old new e⟩
  · rename_i same
    rw [not_not] at same
    rw [same]
    exact ⟨e', h, retitled_same id old e'⟩

theorem retitle_eq (id old new : String) (d : Diagram) :
    retitle id old new d = ⟨d.nodes, (retitle id old new d).edges⟩ := by
  unfold retitle
  split <;> rfl

theorem titles_replaceColumn (old : String) (u : NodeColumn) (cs : List NodeColumn) :
    (replaceColumn old u cs).map NodeColumn.title =
      (cs.map NodeColumn.title).map (newTitle old u.title) := by
  unfold replaceColumn
  rw [List.map_map, List.map_map]
  refine List.map_congr_left fun c _ => ?_
  rw [Function.comp_apply, Function.comp_apply, newTitle]
  split <;> rfl

section Replaced

variable {n : Node} {c u : NodeColumn}

theorem mem_replaceColumn (distinct : (n.data.columns.map NodeColumn.title).Nodup)
    (hc : c ∈ n.data.columns) {b : NodeColumn} :
    b ∈ replaceColumn c.title u n.data.columns ↔ b = u ∨ b ∈ n.data.columns ∧ b ≠ c := by
  have same : ∀ x ∈ n.data.columns, x.title = c.title → x = c := fun x hx ht =>
    List.inj_on_of_nodup_map distinct hx hc ht
  unfold replaceColumn
  rw [List.mem_map]
  constructor
  · rintro ⟨x, hx, rfl⟩
    by_cases ht : x.title = c.title
    · exact .inl (if_pos ht)
    · rw [if_neg ht]
      exact .inr ⟨hx, fun he => ht (by rw [he])⟩
  · rintro (rfl | ⟨hb, other⟩)
    · exact ⟨c, hc, if_pos rfl⟩
    · exact ⟨b, hb, if_neg fun ht => other (same b hb ht)⟩

theorem free_of_others (others : ∀ b ∈ n.data.columns, b ≠ c → b.title ≠ u.title) :
    ∀ t ∈ n.data.columns.map NodeColumn.title, t ≠ c.title → t ≠ u.title := by
  intro t ht other
  obtain ⟨b, hb, rfl⟩ := List.mem_map.mp ht
  exact others b hb fun same => other (by rw [same])

theorem coherent_replaced (h : n.Coherent) (hc : c ∈ n.data.columns) :
    Node.Coherent
        { n with data := { n.data with columns := replaceColumn c.title u n.data.columns } } ↔
      isBlank u.title = false ∧ isBlank u.type = false ∧
        ∀ b ∈ n.data.columns, b ≠ c → b.title ≠ u.title := by
  obtain ⟨named, inhabited, titled, typed, distinct⟩ := h
  have mem {b : NodeColumn} := mem_replaceColumn (u := u) (b := b) distinct hc
  have apart : ∀ b ∈ n.data.columns, b ≠ c → b.title ≠ c.title := fun b hb other same =>
    other (List.inj_on_of_nodup_map distinct hb hc same)
  constructor
  · rintro ⟨-, -, titled', typed', distinct'⟩
    refine ⟨titled' u (mem.mpr (.inl rfl)), typed' u (mem.mpr (.inl rfl)), fun b hb other same => ?_⟩
    rw [titles_replaceColumn] at distinct'
    have inj := (List.nodup_map_iff_inj_on distinct).mp distinct' b.title (List.mem_map_of_mem hb)
      c.title (List.mem_map_of_mem hc)
    refine apart b hb other (inj ?_)
    rw [newTitle, newTitle, if_neg (apart b hb other), if_pos rfl, same]
  · rintro ⟨title, type, others⟩
    refine ⟨named, List.ne_nil_of_mem (mem.mpr (.inl rfl)), fun b hb => ?_, fun b hb => ?_, ?_⟩
    · rcases mem.mp hb with rfl | ⟨hb, -⟩
      · exact title
      · exact titled b hb
    · rcases mem.mp hb with rfl | ⟨hb, -⟩
      · exact type
      · exact typed b hb
    · rw [titles_replaceColumn, List.nodup_map_iff_inj_on distinct]
      exact fun x hx y hy same => newTitle_inj (free_of_others others) hx hy same

theorem offers_replaced (distinct : (n.data.columns.map NodeColumn.title).Nodup)
    (hc : c ∈ n.data.columns) {column : String} (h : n.Offers column) :
    Node.Offers
      { n with data := { n.data with columns := replaceColumn c.title u n.data.columns } }
      (newTitle c.title u.title column) := by
  intro hne
  unfold newTitle at hne ⊢
  split
  · exact ⟨u, (mem_replaceColumn distinct hc).mpr (.inl rfl), rfl⟩
  · rename_i other
    rw [if_neg other] at hne
    obtain ⟨b, hb, rfl⟩ := h hne
    exact ⟨b, (mem_replaceColumn distinct hc).mpr (.inr ⟨hb, fun same => other (by rw [same])⟩), rfl⟩

end Replaced

theorem apart_retitled (tabled : d.Tabled) {n : Node} (hn : n ∈ d.nodes) (own : n.Coherent)
    {c u : NodeColumn} (hc : c ∈ n.data.columns)
    (others : ∀ b ∈ n.data.columns, b ≠ c → b.title ≠ u.title) {e e' : Edge}
    (he : e.Coherent d.nodes) (r : Retitled n.id c.title u.title e e') :
    ¬ (e'.source = e'.target ∧ e'.sourceColumn = e'.targetColumn ∧ e'.sourceColumn ≠ "") := by
  rw [r.source, r.target, r.sourceColumn, r.targetColumn]
  rintro ⟨loop, columns, named⟩
  rw [← loop] at columns
  by_cases here : e.source = n.id
  · rw [if_pos here] at columns named
    rw [if_pos here] at columns
    have empty : newTitle c.title u.title "" = "" := by
      refine if_neg fun blank => ?_
      have titled := own.titled c hc
      rw [← blank] at titled
      cases titled
    -- columns that are named are columns of the table
    have titles : ∀ {column : String}, (∃ m ∈ d.nodes, m.id = n.id ∧ m.Offers column) →
        newTitle c.title u.title column ≠ "" → column ∈ n.data.columns.map NodeColumn.title := by
      rintro column ⟨m, hm, hi, offers⟩ hne
      rw [tabled.eq_of_id hm hn hi] at offers
      obtain ⟨b, hb, rfl⟩ := offers fun he => hne (by rw [he, empty])
      exact List.mem_map_of_mem hb
    have source := he.source
    have target := he.target
    rw [here] at source
    rw [← loop, here] at target
    have same := newTitle_inj (free_of_others others) (titles source named)
      (titles target (columns ▸ named)) columns
    exact he.apart ⟨loop, same, fun he => named (by rw [he, empty])⟩
  · rw [if_neg here] at columns named
    rw [if_neg here] at columns
    exact he.apart ⟨loop, columns, named⟩

theorem coherent_updated (tabled : d.Tabled) (h : d.Coherent) {n : Node} (hn : n ∈ d.nodes)
    {c : NodeColumn} (hc : c ∈ n.data.columns) (u : NodeColumn) :
    (retitle n.id c.title u.title (d.putData n.id
      { n.data with columns := replaceColumn c.title u n.data.columns })).Coherent ↔
      isBlank u.title = false ∧ isBlank u.type = false ∧
        ∀ b ∈ n.data.columns, b ≠ c → b.title ≠ u.title := by
  have own := h.nodes n hn
  rw [retitle_eq]
  refine (coherent_putColumns tabled h hn _ _).trans ?_
  rw [coherent_replaced own hc]
  refine and_iff_left_of_imp ?_
  rintro ⟨-, -, others⟩ e' he' tight
  obtain ⟨e, he, r⟩ := mem_retitle he'
  have old : e.Coherent d.nodes := by
    refine h.edges e he ?_
    unfold Edge.Loose at tight ⊢
    rwa [r.source, r.target] at tight
  refine ⟨(by rw [r.label]; exact old.legal), ?_, ?_, apart_retitled tabled hn own hc others old r⟩
  · rw [r.source, r.sourceColumn]
    refine end_putData tabled hn (fun here offers => ?_) (fun away => if_neg (Ne.symm away)) old.source
    rw [if_pos here.symm]
    exact offers_replaced own.distinct hc offers
  · rw [r.target, r.targetColumn]
    refine end_putData tabled hn (fun here offers => ?_) (fun away => if_neg (Ne.symm away)) old.target
    rw [if_pos here.symm]
    exact offers_replaced own.distinct hc offers

theorem firstColumn_coherent {id name : String} {p : Position} (named : isBlank name = false) :
    (newTable id name p).Coherent := by
  have titled : ∀ c ∈ [firstColumn], isBlank c.title = false := by decide
  have typed : ∀ c ∈ [firstColumn], isBlank c.type = false := by decide
  exact ⟨⟨name, rfl, named⟩, List.cons_ne_nil _ _, titled, typed, List.nodup_singleton _⟩

theorem coherent_newTable (h : d.Coherent) (id : String) {name : String} (p : Position)
    (named : isBlank name = false) (fresh : ∀ n ∈ d.nodes, n.data.label ≠ .text name) :
    Coherent { d with nodes := d.nodes ++ [newTable id name p] } where
  nodes n hn := by
    rcases List.mem_append.mp hn with hn | hn
    · exact h.nodes n hn
    · rw [List.mem_singleton.mp hn]
      exact firstColumn_coherent named
  names a ha b hb same := by
    rcases List.mem_append.mp ha with ha | ha
    · rcases List.mem_append.mp hb with hb | hb
      · exact h.names a ha b hb same
      · rw [List.mem_singleton.mp hb] at same
        exact absurd same (fresh a ha)
    · rcases List.mem_append.mp hb with hb | hb
      · rw [List.mem_singleton.mp ha] at same
        exact absurd same.symm (fresh b hb)
      · rw [List.mem_singleton.mp ha, List.mem_singleton.mp hb]
  edges e he tight := (h.edges e he tight).mono fun m hm _ =>
    List.mem_append_left _ hm

theorem coherent_detached (h : d.Coherent) (id : String) :
    (filterEdges (fun e => e.source ≠ id ∧ e.target ≠ id)
      (filterNodes (fun m => m.id ≠ id) d)).Coherent where
  nodes n hn := h.nodes n (List.mem_of_mem_filter hn)
  names a ha b hb := h.names a (List.mem_of_mem_filter ha) b (List.mem_of_mem_filter hb)
  edges e he tight := by
    obtain ⟨he, apart⟩ := List.mem_filter.mp he
    simp only [decide_eq_true_eq] at apart
    refine (h.edges e he tight).mono fun m hm at_ => ?_
    have stays : m.id ≠ id := by
      rcases at_ with source | target
      · exact source ▸ apart.1
      · exact target ▸ apart.2
    exact List.mem_filter.mpr ⟨hm, by simpa using stays⟩

theorem coherent_newEdge (identified : ∀ n ∈ d.nodes, n.id ≠ "") (tabled : d.Tabled)
    (h : d.Coherent) {a b : Node} (ha : a ∈ d.nodes) (hb : b ∈ d.nodes) (id column : String)
    (target : Option String) (c : Cardinality) :
    Coherent { d with edges := d.edges ++ [newEdge id a.id b.id column target c] } ↔
      a.Offers column ∧ b.Offers (target.getD "") ∧
        ¬ (a = b ∧ column = target.getD "" ∧ column ≠ "") := by
  have source : (newEdge id a.id b.id column target c).sourceColumn = column :=
    Handle.column_ofColumn column
  have tight : ¬ (newEdge id a.id b.id column target c).Loose :=
    not_or.mpr ⟨identified a ha, identified b hb⟩
  rw [coherent_edges h, List.forall_mem_append]
  refine (and_iff_right h.edges).trans ?_
  rw [List.forall_mem_singleton, imp_iff_right tight]
  constructor
  · rintro ⟨-, ⟨m, hm, im, offers⟩, ⟨n, hn, hi, offers'⟩, apart⟩
    rw [source] at offers apart
    rw [tabled.eq_of_id hm ha im] at offers
    rw [tabled.eq_of_id hn hb hi] at offers'
    exact ⟨offers, offers', fun ⟨same, columns⟩ => apart ⟨congrArg Node.id same, columns⟩⟩
  · rintro ⟨offers, offers', apart⟩
    refine ⟨legalLabel_spelling c, ⟨a, ha, rfl, source.symm ▸ offers⟩, ⟨b, hb, rfl, offers'⟩, ?_⟩
    rw [source]
    exact fun ⟨same, columns⟩ => apart ⟨tabled.eq_of_id ha hb same, columns⟩

theorem coherent_fewer (h : d.Coherent) (p : Edge → Bool) : (filterEdges p d).Coherent :=
  (coherent_edges h _).mpr fun e he => h.edges e (List.mem_of_mem_filter he)

theorem coherent_relabelled (h : d.Coherent) (id : String) (c : Cardinality) :
    (mapEdges (relabel id c) d).Coherent := by
  refine (coherent_edges h _).mpr (List.forall_mem_map.mpr fun e he => ?_)
  unfold relabel
  split
  · intro tight
    obtain ⟨-, source, target, apart⟩ := h.edges e he tight
    exact ⟨legalLabel_spelling c, source, target, apart⟩
  · exact h.edges e he

end Diagram

end SchemaDiagram

import PaperIndex.Proofs.Cache.Mirror

/-! # Caches beside clocks finer than a millisecond

A cache that keeps milliseconds cuts instants on their way in (`Store.inMillis`). Of two caches that
simulate each other, so do the ones that cut (`Simulates.inMillis`), for the instants whose
milliseconds are good. A cut is not seen where all instants are whole milliseconds: the cache in
memory that cuts simulates the one that does not (`cut_simulates`). The instants of this one are
those of the other one in ticks. -/

namespace PaperIndex

open Time (Instant)

theorem IndexedRecord.inTicks_millis {ticks : Nat} {t : Instant} (h : (ticks : Int) ∣ t)
    (r : IndexedRecord) :
    inTicks ticks { r with indexedAt := Time.millis ticks t } = { r with indexedAt := t } :=
  congrArg (fun t => { r with indexedAt := t }) (Time.millis_mul_of_dvd h)

namespace Cache

variable {ρ ρ' : Type} {R : ρ → ρ' → Prop} {Good : Instant → Prop}

/-- Beside a clock that counts milliseconds, nothing is cut. -/
theorem Store.inMillis_one (s : Store ρ) : s.inMillis 1 = s := by
  have hrecord : IndexedRecord.inTicks 1 = id := funext fun r => by
    simp only [IndexedRecord.inTicks, Int.natCast_one, Int.mul_one, id]
  have hserver : ServerEntry.inTicks 1 = id := funext fun x => by
    simp only [ServerEntry.inTicks, Int.natCast_one, Int.mul_one, Option.map_id_fun', id]
  unfold inMillis
  simp only [hrecord, hserver, Time.millis_one, Option.map_id, List.map_id_fun, Except.map_id,
    id]

/-- **A simulation** is not lost when both caches cut. -/
theorem Store.Simulates.inMillis {s' : Store ρ'} {s : Store ρ} (h : s'.Simulates R Good s)
    (ticks : Nat) :
    (s'.inMillis ticks).Simulates R (fun t => Good (Time.millis ticks t)) (s.inMillis ticks) where
  get uri _ _ hst := congrArg (Except.map _) (h.get uri hst)
  upsert _ _ _ ht hst := h.upsert _ ht hst
  updateContent uri hash body _ _ _ ht hst := h.updateContent uri hash body ht hst
  updateSource uri hash endpoint _ _ _ ht hst := h.updateSource uri hash endpoint ht hst
  touchVerified uri hash _ _ _ ht hst := h.touchVerified uri hash ht hst
  delete uri _ _ hst := h.delete uri hst
  indexedBefore limit _ _ ht hst := congrArg (Except.map _) (h.indexedBefore limit ht hst)
  registerServer endpoint _ _ _ ht hst := h.registerServer endpoint ht hst
  servers hst := congrArg (Except.map _) (h.servers hst)
  markSwept endpoint _ _ _ ht hst := h.markSwept endpoint ht hst

/-! ### Whole milliseconds in memory -/

/-- The cache whose instants are in milliseconds, with the instants in ticks. -/
def Memory.inTicks (ticks : Nat) (m : Memory) : Memory :=
  ⟨m.records.mapValues (IndexedRecord.inTicks ticks),
    m.registry.mapValues (ServerEntry.inTicks ticks)⟩

namespace Memory

variable {ticks : Nat}

theorem find?_records_inTicks (m : Memory) (uri : String) :
    (m.inTicks ticks).records.find? uri =
      (m.records.find? uri).map (IndexedRecord.inTicks ticks) :=
  Table.find?_mapValues _ _ _

theorem update_inTicks (m : Memory) (uri : String) {test : IndexedRecord → Bool}
    {f g : IndexedRecord → IndexedRecord} (htest : ∀ r, test (r.inTicks ticks) = test r)
    (hf : ∀ r, g (r.inTicks ticks) = (f r).inTicks ticks) :
    Alike (fun x y => x = inTicks ticks y) ((m.inTicks ticks).update uri test g)
      (m.update uri test f) := by
  unfold update Alike
  rw [find?_records_inTicks]
  cases m.records.find? uri with
  | none => exact ⟨rfl, rfl⟩
  | some r =>
    simp only [Option.map_some, htest]
    cases test r with
    | false => exact ⟨rfl, rfl⟩
    | true =>
      have hrecords := Table.modify_mapValues _ hf m.records uri
      exact ⟨rfl, congrArg (Memory.mk · _) hrecords⟩

/-- Ticks order records as milliseconds do. -/
theorem scanOrder_inTicks (hticks : (0 : Int) < ticks) (a b : IndexedRecord) :
    scanOrder (a.inTicks ticks) (b.inTicks ticks) = scanOrder a b := by
  have hlt : a.indexedAt * ticks < b.indexedAt * ticks ↔ a.indexedAt < b.indexedAt :=
    Int.mul_lt_mul_right hticks
  have heq : a.indexedAt * ticks = b.indexedAt * ticks ↔ a.indexedAt = b.indexedAt :=
    Int.mul_eq_mul_right_iff (Int.ne_of_gt hticks)
  unfold scanOrder IndexedRecord.inTicks
  rw [decide_eq_decide.2 hlt, beq_eq_beq.2 heq]

theorem indexedBefore_inTicks (hticks : (0 : Int) < ticks) (m : Memory) (cutoff : Instant)
    (limit : Nat) :
    store.indexedBefore (cutoff * ticks) limit (m.inTicks ticks) =
      (store.indexedBefore cutoff limit m).map (List.map (IndexedRecord.inTicks ticks)) := by
  have hbefore : ((fun r : IndexedRecord => decide (r.indexedAt < cutoff * ticks)) ∘
      IndexedRecord.inTicks ticks) = fun r => decide (r.indexedAt < cutoff) :=
    funext fun r => decide_eq_decide.2 (Int.mul_lt_mul_right hticks)
  refine congrArg Except.ok ?_
  rw [inTicks, Table.map_snd_mapValues, List.filter_map, hbefore, List.map_take,
    List.map_mergeSort fun a _ b _ => (scanOrder_inTicks hticks a b).symm]

theorem servers_inTicks (m : Memory) :
    store.servers (m.inTicks ticks) =
      (store.servers m).map (List.map (ServerEntry.inTicks ticks)) := by
  refine congrArg Except.ok ?_
  rw [inTicks, Table.map_snd_mapValues]
  exact (List.map_mergeSort (f := ServerEntry.inTicks ticks) fun _ _ _ _ => rfl).symm

theorem registerServer_inTicks (m : Memory) (endpoint : String) (t : Instant) :
    Alike (fun x y => x = inTicks ticks y)
      (store.registerServer endpoint (t * ticks) (m.inTicks ticks))
      (store.registerServer endpoint t m) := by
  have hknown : ((m.inTicks ticks).registry.find? endpoint).isSome =
      (m.registry.find? endpoint).isSome := by
    rw [inTicks, Table.find?_mapValues, Option.isSome_map]
  unfold store Alike
  dsimp only
  rw [hknown]
  by_cases hsome : (m.registry.find? endpoint).isSome = true
  · rw [if_pos hsome, if_pos hsome]
    exact ⟨rfl, rfl⟩
  · rw [if_neg hsome, if_neg hsome]
    have hregistry := Table.insert_mapValues (ServerEntry.inTicks ticks) m.registry endpoint
      ⟨endpoint, t, none⟩
    exact ⟨rfl, congrArg (Memory.mk _) hregistry⟩

/-- **Whole milliseconds**: the cache in memory that cuts simulates the one that does not. -/
theorem cut_simulates (hticks : 0 < ticks) :
    (store.inMillis ticks).Simulates (fun m m' => m = m'.inTicks ticks)
      (fun t => (ticks : Int) ∣ t) store where
  get uri := by
    rintro _ m rfl
    exact congrArg Except.ok (find?_records_inTicks m uri).symm
  upsert r := by
    rintro _ m ht rfl
    have hrecords := Table.insert_mapValues (IndexedRecord.inTicks ticks) m.records r.uri
      { r with indexedAt := Time.millis ticks r.indexedAt }
    rw [IndexedRecord.inTicks_millis ht] at hrecords
    exact ⟨rfl, congrArg (Memory.mk · _) hrecords⟩
  updateContent uri hash body t := by
    rintro _ m ht rfl
    exact update_inTicks m uri (fun _ => rfl) fun r =>
      (IndexedRecord.inTicks_millis ht { r with contentHash := hash, body := body }).symm
  updateSource uri hash endpoint t := by
    rintro _ m ht rfl
    exact update_inTicks m uri (fun _ => rfl) fun r =>
      (IndexedRecord.inTicks_millis ht { r with contentHash := hash, endpoint := endpoint }).symm
  touchVerified uri hash t := by
    rintro _ m ht rfl
    exact update_inTicks m uri (fun _ => rfl) fun r => (IndexedRecord.inTicks_millis ht r).symm
  delete uri := by
    rintro _ m rfl
    refine ⟨congrArg Except.ok ?_, congrArg (Memory.mk · _) ?_⟩
    · rw [inTicks, Table.find?_mapValues, Option.isSome_map]
    · exact Table.filter_mapValues (IndexedRecord.inTicks ticks) m.records (· != uri)
  indexedBefore {cutoff} limit := by
    rintro _ m hcutoff rfl
    have hscan :=
      indexedBefore_inTicks (Int.natCast_pos.2 hticks) m (Time.millis ticks cutoff) limit
    rw [Time.millis_mul_of_dvd hcutoff] at hscan
    exact hscan.symm
  registerServer endpoint t := by
    rintro _ m ht rfl
    have hregister := @registerServer_inTicks ticks m endpoint (Time.millis ticks t)
    rwa [Time.millis_mul_of_dvd ht] at hregister
  servers := by
    rintro _ m rfl
    exact (servers_inTicks m).symm
  markSwept endpoint t := by
    rintro _ m ht rfl
    refine ⟨rfl, congrArg (Memory.mk _) ?_⟩
    refine Table.modify_mapValues (ServerEntry.inTicks ticks)
      (g := fun s => { s with lastSweptAt := some (Time.millis ticks t) }) (fun s => ?_) m.registry
      endpoint
    change ServerEntry.mk _ _ (some t) = ServerEntry.mk _ _ (some (_ * _))
    rw [Time.millis_mul_of_dvd ht]
    rfl

end Memory

end Cache

end PaperIndex

/-
  Reading descriptors that others were read before.

  A reader keeps what it has read, also what it read of a base while the class that names it was underway.  `Reads`
  is the course of such a reading, without a bound on its depth; as the records underway have different addresses in
  the image, it always comes to an end (`RecordFormat.reads_readEach`).  Every descriptor is read with the name and
  the bases that a reader without a past gives it.  A base has its name, unless following links from it leads back to
  the class itself (`RecordFormat.Names`): then its descriptor may have been underway.

  * `RecordFormat.read_anew`: what a reader without a past reads, in terms of the image.
  * `RecordFormat.read_after`: what was read before takes away names of bases at most, and nothing at all where no
    cycle of links can be reached.  A list of bases that is cut off has links too, though its descriptor has no bases.
-/
import ClassRecovery.Proofs.Lists
import ClassRecovery.Proofs.Memory
import ClassRecovery.Proofs.Rtti.Links
import Mathlib.Data.List.Nodup
import Mathlib.Data.List.Perm.Subperm
import Mathlib.Logic.Relation

namespace ClassRecovery

open Relation (ReflTransGen TransGen)

/-- The addresses of the bytes of an image. -/
def Image.addresses (image : Image) : List Address :=
  (List.range image.region.size).map fun n => image.base + UInt64.ofNat n

namespace RecordFormat

variable (format : RecordFormat) (image : Image)

/-! ## Links -/

/-- The addresses that reading the record at an address leads to. -/
def links (address : Address) : List Address :=
  (format.head? image address).elim [] fun head => format.followed image (format.kindOf image head) head

/-- A link from one record to another: reading the first one leads to the second as a base. -/
def Follows (a b : Address) : Prop := b ∈ format.links image a

/-- The descriptor at one address has a base at the other. -/
def HasBase (a b : Address) : Prop := ∃ d, (format.read image a []).1 = some d ∧ b ∈ d.baseAddresses

/-- The descriptor at an address, when the records it leads to have the given names. -/
def assembled (address : Address) (head : RecordHead) (names : List (Option String)) : TypeDescriptor where
  address
  name := demangle head.mangledName
  mangledName := head.mangledName
  kind := format.described image (format.kindOf image head) head names
  vtable := head.vtable

/-- The name in the record at an address. -/
def nameAt? (address : Address) : Option String :=
  (format.head? image address).map fun head => demangle head.mangledName

/-! ## The course of a reading -/

/-- Reading the descriptors at addresses, one after the other, while those in `pending` are underway.  The answers
    are found from one set of descriptors that were read before, and lead to another. -/
inductive Reads : List Address → List Address → DescriptorCache → List (Option TypeDescriptor) → DescriptorCache → Prop
  | done {pending : List Address} {cache : DescriptorCache} : Reads pending [] cache [] cache
  | known {pending rest : List Address} {address : Address} {d : TypeDescriptor} {cache cache' : DescriptorCache}
    {answers : List (Option TypeDescriptor)} :
    cache.find? address = some d → Reads pending rest cache answers cache' →
    Reads pending (address :: rest) cache (some d :: answers) cache'
  | underway {pending rest : List Address} {address : Address} {cache cache' : DescriptorCache}
    {answers : List (Option TypeDescriptor)} :
    cache.find? address = none → address ∈ pending → Reads pending rest cache answers cache' →
    Reads pending (address :: rest) cache (none :: answers) cache'
  | unreadable {pending rest : List Address} {address : Address} {cache cache' : DescriptorCache}
    {answers : List (Option TypeDescriptor)} :
    cache.find? address = none → address ∉ pending → format.head? image address = none →
    Reads pending rest cache answers cache' → Reads pending (address :: rest) cache (none :: answers) cache'
  | record {pending rest : List Address} {address : Address} {head : RecordHead} {d : TypeDescriptor}
    {cache between cache' : DescriptorCache} {bases answers : List (Option TypeDescriptor)} :
    cache.find? address = none → address ∉ pending → format.head? image address = some head →
    Reads (address :: pending) (format.links image address) cache bases between →
    d = format.assembled image address head (namesOf bases) → Reads pending rest (d :: between) answers cache' →
    Reads pending (address :: rest) cache (some d :: answers) cache'

variable {format image}

theorem links_of_head? {address : Address} {head : RecordHead} (h : format.head? image address = some head) :
    format.links image address = format.followed image (format.kindOf image head) head := by
  rw [links, h, Option.elim_some]

/-- Reading one descriptor, with one more level of depth. -/
theorem readWithin_succ (fuel : Nat) (pending : List Address) (address : Address) (cache : DescriptorCache) :
    format.readWithin image (fuel + 1) pending address cache =
      match cache.find? address with
      | some d => (some d, cache)
      | none =>
        if address ∈ pending then (none, cache)
        else match format.head? image address with
          | none => (none, cache)
          | some head =>
            let answers := readEach (format.readWithin image fuel (address :: pending)) (format.links image address) cache
            let d := format.assembled image address head (namesOf answers.1)
            (some d, d :: answers.2) := by
  rw [readWithin]
  cases cache.find? address with
  | some d => rfl
  | none =>
    by_cases hpending : address ∈ pending
    · simp [hpending]
    · cases hhead : format.head? image address with
      | none => simp [hpending]
      | some head => simp [hpending, bases_eq, links_of_head? hhead, assembled]

/-- A record stands at the address of a byte. -/
theorem mem_addresses_of_head? {address : Address} {head : RecordHead} (h : format.head? image address = some head) :
    address ∈ image.addresses := by
  simp only [head?, bind, Option.bind_eq_some_iff, Image.position?] at h
  obtain ⟨position, hposition, vtable, hvtable, -⟩ := h
  split at hposition
  · obtain rfl := Option.some.inj hposition
    have hfits := PointerFormat.fits_of_pointer? hvtable
    have hpos := format.pointers.width.bytes_pos
    simp only [PointerFormat.size] at hfits
    refine List.mem_map.mpr ⟨(address - image.base).toNat, List.mem_range.mpr (by omega), ?_⟩
    rw [UInt64.ofNat_toNat, UInt64.add_comm, UInt64.sub_add_cancel]
  · cases hposition

/-- There are no more different records than bytes. -/
theorem length_le_of_readable {addresses : List Address} (hnodup : addresses.Nodup)
    (hreadable : ∀ a ∈ addresses, (format.head? image a).isSome = true) :
    addresses.length ≤ image.region.size := by
  have hsub : addresses ⊆ image.addresses := fun a ha => by
    obtain ⟨head, hhead⟩ := Option.isSome_iff_exists.mp (hreadable a ha)
    exact mem_addresses_of_head? hhead
  simpa [Image.addresses] using (List.subperm_of_subset hnodup hsub).length_le

/-- A reading that is as deep as there are bytes, less the records underway, runs its course. -/
theorem reads_readEach (fuel : Nat) {pending : List Address} (hnodup : pending.Nodup)
    (hreadable : ∀ a ∈ pending, (format.head? image a).isSome = true)
    (hfuel : image.region.size < fuel + pending.length) (addresses : List Address) (cache : DescriptorCache) :
    let answers := readEach (format.readWithin image fuel pending) addresses cache
    format.Reads image pending addresses cache answers.1 answers.2 := by
  induction fuel generalizing pending addresses cache with
  | zero =>
    have := length_le_of_readable hnodup hreadable
    omega
  | succ fuel ih =>
    induction addresses generalizing cache with
    | nil => exact .done
    | cons address rest ihrest =>
      simp only [readEach, readWithin_succ]
      cases hknown : cache.find? address with
      | some d => exact .known hknown (ihrest cache)
      | none =>
        by_cases hpending : address ∈ pending
        · simp only [if_pos hpending]
          exact .underway hknown hpending (ihrest cache)
        · simp only [if_neg hpending]
          cases hhead : format.head? image address with
          | none => exact .unreadable hknown hpending hhead (ihrest cache)
          | some head =>
            have hdeeper : ∀ a ∈ address :: pending, (format.head? image a).isSome = true := by
              simpa [hhead] using hreadable
            refine .record hknown hpending hhead ?_ rfl (ihrest _)
            exact ih (List.nodup_cons.mpr ⟨hpending, hnodup⟩) hdeeper (by simp only [List.length_cons]; omega) _ _

variable (format image)

/-- **Reading always comes to an end.** -/
theorem reads_read (addresses : List Address) (cache : DescriptorCache) :
    let answers := readEach (format.read image) addresses cache
    format.Reads image [] addresses cache answers.1 answers.2 :=
  reads_readEach (image.region.size + 1) List.nodup_nil (by simp) (by simp) addresses cache

/-! ## What is read -/

/-- The name that is told of a base of the class at an address: that of its record, or none if following links from
    the base leads to the class. -/
def Names (address base : Address) (name : Option String) : Prop :=
  base ≠ address ∧ name = format.nameAt? image base ∨
    name = none ∧ ReflTransGen (format.Follows image) base address

/-- The descriptor is that of the record at its address. -/
def Genuine (d : TypeDescriptor) : Prop :=
  ∃ head names, format.head? image d.address = some head ∧
    List.Forall₂ (format.Names image d.address) (format.links image d.address) names ∧
    d = format.assembled image d.address head names

/-- The answer at an address, while the records in `pending` are underway. -/
def Answers (pending : List Address) (address : Address) : Option TypeDescriptor → Prop
  | some d => address ∉ pending ∧ d.address = address ∧ format.Genuine image d
  | none => address ∈ pending ∨ format.head? image address = none

/-- The name that a reader without a past gives a base of the class at an address. -/
def usualName (address base : Address) : Option String :=
  if base = address then none else format.nameAt? image base

variable {format image}

theorem Genuine.nameAt? {d : TypeDescriptor} (h : format.Genuine image d) :
    format.nameAt? image d.address = some d.name := by
  obtain ⟨head, names, hhead, -, hd⟩ := h
  rw [RecordFormat.nameAt?, hhead, Option.map_some, hd]
  rfl

/-- What is answered for the records that a record leads to gives the names of its bases. -/
theorem names_of_answers {pending bases : List Address} {address : Address} {answers : List (Option TypeDescriptor)}
    (hreadable : (format.head? image address).isSome = true)
    (hpending : ∀ p ∈ pending, ReflTransGen (format.Follows image) p address)
    (h : List.Forall₂ (format.Answers image (address :: pending)) bases answers) :
    List.Forall₂ (format.Names image address) bases (namesOf answers) := by
  refine List.forall₂_map_right_iff.mpr (h.imp fun base answer hanswer => ?_)
  cases answer with
  | some d =>
    obtain ⟨hnot, rfl, hgenuine⟩ := hanswer
    exact .inl ⟨fun heq => hnot (heq ▸ List.mem_cons_self), hgenuine.nameAt?.symm⟩
  | none =>
    rcases hanswer with hmem | hnone
    · refine .inr ⟨rfl, ?_⟩
      rcases List.mem_cons.mp hmem with rfl | hmem
      · exact .refl
      · exact hpending base hmem
    · refine .inl ⟨?_, ?_⟩
      · rintro rfl
        simp [hnone] at hreadable
      · simp [RecordFormat.nameAt?, hnone]

theorem find?_cons_of_ne {d : TypeDescriptor} {cache : DescriptorCache} {address : Address} (h : d.address ≠ address) :
    DescriptorCache.find? (d :: cache) address = cache.find? address := by
  simp [DescriptorCache.find?, h]

theorem of_find?_eq_some {cache : DescriptorCache} {address : Address} {d : TypeDescriptor}
    (h : cache.find? address = some d) : d ∈ cache ∧ d.address = address :=
  ⟨List.mem_of_find?_eq_some h, by simpa using List.find?_some h⟩

/-- **What is read is genuine**, if all records underway lead to what is read, and none of them was read before. -/
theorem Reads.answers {pending addresses : List Address} {cache cache' : DescriptorCache}
    {answers : List (Option TypeDescriptor)} (h : format.Reads image pending addresses cache answers cache')
    (hcache : ∀ d ∈ cache, format.Genuine image d) (hnew : ∀ p ∈ pending, cache.find? p = none)
    (hpending : ∀ p ∈ pending, ∀ a ∈ addresses, ReflTransGen (format.Follows image) p a) :
    (∀ d ∈ cache', format.Genuine image d) ∧ (∀ p ∈ pending, cache'.find? p = none) ∧
      List.Forall₂ (format.Answers image pending) addresses answers := by
  induction h with
  | done => exact ⟨hcache, hnew, .nil⟩
  | known hknown _ ih =>
    obtain ⟨hmem, rfl⟩ := of_find?_eq_some hknown
    obtain ⟨hcache', hnew', hrest⟩ := ih hcache hnew fun p hp a ha => hpending p hp a (List.mem_cons_of_mem _ ha)
    refine ⟨hcache', hnew', .cons ⟨fun hp => ?_, rfl, hcache _ hmem⟩ hrest⟩
    rw [hnew _ hp] at hknown
    cases hknown
  | underway _ hp _ ih =>
    obtain ⟨hcache', hnew', hrest⟩ := ih hcache hnew fun p hp a ha => hpending p hp a (List.mem_cons_of_mem _ ha)
    exact ⟨hcache', hnew', .cons (.inl hp) hrest⟩
  | unreadable _ _ hhead _ ih =>
    obtain ⟨hcache', hnew', hrest⟩ := ih hcache hnew fun p hp a ha => hpending p hp a (List.mem_cons_of_mem _ ha)
    exact ⟨hcache', hnew', .cons (.inr hhead) hrest⟩
  | @record pending rest address head d cache between cache' bases answers hknown hnot hhead _ hd _ ihbases ih =>
    have hreach : ∀ p ∈ pending, ReflTransGen (format.Follows image) p address := fun p hp =>
      hpending p hp address List.mem_cons_self
    obtain ⟨hbetween, hnewBetween, hbases⟩ := ihbases hcache
      (fun p hp => (List.mem_cons.mp hp).elim (fun heq => heq ▸ hknown) (hnew p))
      (fun p hp b hb => (List.mem_cons.mp hp).elim (fun heq => heq ▸ .single hb) fun hp => (hreach p hp).tail hb)
    have hnames : List.Forall₂ (format.Names image address) (format.links image address) (namesOf bases) :=
      names_of_answers (hhead ▸ rfl) hreach hbases
    have hgenuine : format.Genuine image d := hd ▸ ⟨head, namesOf bases, hhead, hnames, rfl⟩
    have haddress : d.address = address := hd ▸ rfl
    have hnew' : ∀ p ∈ pending, DescriptorCache.find? (d :: between) p = none := fun p hp => by
      rw [find?_cons_of_ne fun heq => hnot (haddress ▸ heq ▸ hp)]
      exact hnewBetween p (List.mem_cons_of_mem _ hp)
    obtain ⟨hcache', hnew', hrest⟩ := ih (List.forall_mem_cons.mpr ⟨hgenuine, hbetween⟩) hnew'
      fun p hp a ha => hpending p hp a (List.mem_cons_of_mem _ ha)
    exact ⟨hcache', hnew', .cons ⟨hnot, haddress, hgenuine⟩ hrest⟩

/-! ## Reading anew -/

/-- The name of a base is the usual one, or is not told. -/
theorem Names.cases {address base : Address} {name : Option String} (h : format.Names image address base name) :
    name = format.usualName image address base ∨ name = none := by
  rcases h with ⟨hne, rfl⟩ | ⟨rfl, -⟩
  · exact .inl (if_neg hne).symm
  · exact .inr rfl

/-- The name of a base is the usual one, if no cycle of links goes through the class. -/
theorem Names.eq_usualName {address base : Address} {name : Option String}
    (h : format.Names image address base name) (hbase : format.Follows image address base)
    (hcycle : ¬ TransGen (format.Follows image) address address) : name = format.usualName image address base := by
  rcases h with ⟨hne, rfl⟩ | ⟨-, hback⟩
  · exact (if_neg hne).symm
  · exact absurd (.head' hbase hback) hcycle

theorem namesOf_eq_map {address : Address} {bases : List Address} {answers : List (Option TypeDescriptor)}
    (h : List.Forall₂ (format.Answers image [address]) bases answers) :
    namesOf answers = bases.map (format.usualName image address) := by
  refine map_eq_of_forall₂ h fun base answer hanswer => ?_
  unfold usualName
  cases answer with
  | some d =>
    obtain ⟨hnot, rfl, hgenuine⟩ := hanswer
    have hne : d.address ≠ address := fun heq => hnot (heq ▸ List.mem_singleton_self _)
    rw [if_neg hne, hgenuine.nameAt?]
    rfl
  | none =>
    rcases hanswer with hmem | hnone
    · rw [if_pos (List.mem_singleton.mp hmem)]
      rfl
    · simp [RecordFormat.nameAt?, hnone]

variable (format image)

/-- The descriptor of a record with the usual names. -/
def usual (address : Address) (head : RecordHead) : TypeDescriptor :=
  format.assembled image address head ((format.links image address).map (format.usualName image address))

/-- **A reader without a past** reads every record with the usual names. -/
theorem read_anew (address : Address) :
    (format.read image address []).1 = (format.head? image address).map (format.usual image address) := by
  have hnew : DescriptorCache.find? [] address = none := rfl
  rw [read, readWithin_succ]
  simp only [hnew, List.not_mem_nil, if_false]
  cases hhead : format.head? image address with
  | none => rfl
  | some head =>
    have hreads := @reads_readEach format image image.region.size [address] (List.nodup_singleton _)
      (by simp [hhead]) (by simp) (format.links image address) []
    have hnames := hreads.answers (by simp) (by simp [DescriptorCache.find?]) fun p hp b hb =>
      .single (List.mem_singleton.mp hp ▸ hb)
    simp only [namesOf_eq_map hnames.2.2, Option.map_some, usual]

theorem map_name_read_anew (address : Address) :
    ((format.read image address []).1).map (·.name) = format.nameAt? image address := by
  rw [read_anew, Option.map_map]
  rfl

/-- What is read at addresses one after the other. -/
theorem answers_readEach (addresses : List Address) {cache : DescriptorCache}
    (hcache : ∀ d ∈ cache, format.Genuine image d) :
    let answers := readEach (format.read image) addresses cache
    (∀ d ∈ answers.2, format.Genuine image d) ∧ List.Forall₂ (format.Answers image []) addresses answers.1 := by
  obtain ⟨hcache', -, hanswers⟩ := (format.reads_read image addresses cache).answers hcache (by simp) (by simp)
  exact ⟨hcache', hanswers⟩

variable {format image}

/-- **A genuine descriptor** is that of a reader without a past, some of its bases without their names. -/
theorem Genuine.abridges {d : TypeDescriptor} (h : format.Genuine image d) :
    ∃ full, (format.read image d.address []).1 = some full ∧ d.Abridges full := by
  obtain ⟨head, names, hhead, hnames, hd⟩ := h
  refine ⟨format.usual image d.address head, by rw [read_anew, hhead, Option.map_some], ?_⟩
  have hfewer : List.Forall₂ (fun name fullName => name = fullName ∨ name = none) names
      ((format.links image d.address).map (format.usualName image d.address)) :=
    List.forall₂_map_right_iff.mpr (hnames.flip.imp fun _ _ => Names.cases)
  have hkind : (format.assembled image d.address head names).kind.Abridges
      (format.usual image d.address head).kind := abridges_described hfewer
  rw [← hd] at hkind
  refine ⟨rfl, ?_, ?_, hkind, ?_⟩ <;> rw [hd] <;> rfl

/-- Where no cycle of links goes through a class, its descriptor has all names. -/
theorem Genuine.eq_read_anew {d : TypeDescriptor} (h : format.Genuine image d)
    (hcycle : ¬ TransGen (format.Follows image) d.address d.address) :
    (format.read image d.address []).1 = some d := by
  obtain ⟨head, names, hhead, hnames, hd⟩ := h
  have husual : List.Forall₂ (fun base name => name = format.usualName image d.address base)
      (format.links image d.address) names :=
    forall₂_imp_mem hnames fun base hbase name hname => hname.eq_usualName hbase hcycle
  have hmap : names = (format.links image d.address).map (format.usualName image d.address) := by
    simpa using map_eq_of_forall₂ (g := id) husual fun _ _ heq => heq
  rw [read_anew, hhead, Option.map_some, usual, ← hmap, ← hd]

/-- The bases of a descriptor are linked from its record. -/
theorem HasBase.follows {a b : Address} (h : format.HasBase image a b) : format.Follows image a b := by
  obtain ⟨d, hd, hb⟩ := h
  rw [read_anew, Option.map_eq_some_iff] at hd
  obtain ⟨head, hhead, rfl⟩ := hd
  rw [Follows, links_of_head? hhead]
  have hlength : ((format.links image a).map (format.usualName image a)).length =
      (format.followed image (format.kindOf image head) head).length := by rw [List.length_map, links_of_head? hhead]
  rcases map_descriptor_described hlength with heq | hunknown
  · exact heq ▸ hb
  · rw [TypeDescriptor.baseAddresses, usual, assembled, hunknown] at hb
    cases hb

/-- What is linked from a record is a base of its descriptor, unless that tells of no bases as the record is cut off. -/
theorem Follows.hasBase_or_unknown {a b : Address} (h : format.Follows image a b) :
    format.HasBase image a b ∨ ∃ d, (format.read image a []).1 = some d ∧ d.kind = .unknown := by
  cases hhead : format.head? image a with
  | none => simp [Follows, links, hhead] at h
  | some head =>
    rw [Follows, links_of_head? hhead] at h
    have hread : (format.read image a []).1 = some (format.usual image a head) := by
      rw [read_anew, hhead, Option.map_some]
    have hlength : ((format.links image a).map (format.usualName image a)).length =
        (format.followed image (format.kindOf image head) head).length := by rw [List.length_map, links_of_head? hhead]
    rcases map_descriptor_described hlength with heq | hunknown
    · exact .inl ⟨_, hread, (congrArg (b ∈ ·) heq).mpr h⟩
    · exact .inr ⟨_, hread, hunknown⟩

variable (format image)

/-- **Reading after other descriptors were read**, on the same image.  Every reading comes to an end.  It answers
    where a reader without a past does, and the same but for names of bases, of which some may be missing: that
    reader gives every base but the class itself the name that it reads at the base.  From an address from which no
    cycle of links can be reached, no name is missing.  Links are the bases of descriptors, and more of them only at a
    record that is cut off. -/
theorem read_after (calls : List Address) :
    let answers := (readEach (format.read image) calls []).1
    let anew (a : Address) : Option TypeDescriptor := (format.read image a []).1
    (∃ cache, format.Reads image [] calls [] answers cache) ∧
      List.Forall₂ (fun address answer =>
        Option.Rel TypeDescriptor.Abridges answer (anew address) ∧
        (∀ full, anew address = some full → ∀ b ∈ full.kind.bases,
          b.name = if b.descriptor = address then none else (anew b.descriptor).map (·.name)) ∧
        ((∀ a, ReflTransGen (format.Follows image) address a → ¬ TransGen (format.Follows image) a a) →
          answer = anew address)) calls answers ∧
      ∀ a b, (format.HasBase image a b → format.Follows image a b) ∧
        (format.Follows image a b → format.HasBase image a b ∨ ∃ d, anew a = some d ∧ d.kind = .unknown) := by
  intro answers anew
  refine ⟨⟨_, format.reads_read image calls []⟩, ?_, fun a b => ⟨HasBase.follows, Follows.hasBase_or_unknown⟩⟩
  refine (format.answers_readEach image calls (by simp)).2.imp fun address answer hanswer => ⟨?_, ?_, ?_⟩
  · cases answer with
    | none =>
      have hnone : anew address = none := by simp [anew, read_anew, hanswer.resolve_left List.not_mem_nil]
      rw [hnone]
      exact .none
    | some d =>
      obtain ⟨-, rfl, hgenuine⟩ := hanswer
      obtain ⟨full, hfull, habridges⟩ := hgenuine.abridges
      rw [show anew d.address = some full from hfull]
      exact .some habridges
  · intro full hfull b hb
    simp only [anew, read_anew, Option.map_eq_some_iff] at hfull
    obtain ⟨head, hhead, rfl⟩ := hfull
    simp only [usual, assembled, links_of_head? hhead] at hb
    simp only [anew, map_name_read_anew]
    have hnames : List.Forall₂ (fun base name => name = format.usualName image address base)
        (format.followed image (format.kindOf image head) head)
        ((format.followed image (format.kindOf image head) head).map (format.usualName image address)) :=
      List.forall₂_map_right_iff.mpr (List.forall₂_same.mpr fun _ _ => rfl)
    exact of_mem_bases_described hnames hb
  · intro hacyclic
    cases answer with
    | none => simp [anew, read_anew, hanswer.resolve_left List.not_mem_nil]
    | some d =>
      obtain ⟨-, rfl, hgenuine⟩ := hanswer
      exact (hgenuine.eq_read_anew (hacyclic _ .refl)).symm

/-! ## One base -/

/-- From the one element leads a link to the other one, and from there none. -/
theorem acyclic_of_link {α : Type} {R : α → α → Prop} {a b : α} (hne : a ≠ b) (hfirst : ∀ c, R a c → c = b)
    (hlast : ∀ c, ¬ R b c) (c : α) (hc : ReflTransGen R a c) : ¬ TransGen R c c := by
  have hend (h : TransGen R b b) : False := by
    obtain ⟨d, hd, -⟩ := Relation.TransGen.head'_iff.mp h
    exact hlast d hd
  rcases Relation.ReflTransGen.cases_head hc with rfl | ⟨d, hd, hrest⟩
  · intro hcycle
    obtain ⟨d, hd, hback⟩ := Relation.TransGen.head'_iff.mp hcycle
    obtain rfl := hfirst d hd
    rcases Relation.ReflTransGen.cases_head hback with heq | ⟨e, he, -⟩
    · exact hne heq.symm
    · exact hlast e he
  · obtain rfl := hfirst d hd
    rcases Relation.ReflTransGen.cases_head hrest with rfl | ⟨e, he, -⟩
    · exact hend
    · exact absurd he (hlast e)

/-- Pointers of eight bytes, and one table each for records with a single base and with a list of bases. -/
def wideFormat : RecordFormat := ⟨⟨.eight, .little⟩, .ofList [(0x9100, .single), (0x9200, .multiple)]⟩

/-- The class `A` at 0x1000 with the single base `B`, and the record of `B` at 0x1020 with an empty list of bases. -/
def oneBaseImage : Image where
  base := 0x1000
  region := .ofBytes ([0x9100, 0x1018, 0x1020].flatMap (littleBytes 8) ++ [0x31, 0x41, 0, 0, 0x31, 0x42, 0, 0] ++
    [0x9200, 0x101C, 0].flatMap (littleBytes 8)).toArray

/-- The base `B` has its name in the descriptor of `A`, also when it was read before. -/
theorem read_after_oneBase :
    (readEach (wideFormat.read oneBaseImage) [0x1020, 0x1000] []).1[1]? =
        some (wideFormat.read oneBaseImage 0x1000 []).1 ∧
      (wideFormat.read oneBaseImage 0x1000 []).1 =
        some ⟨0x1000, "A", "1A", .single ⟨0x1020, some "B", 0, .publicBase⟩, 0x9100⟩ := by
  have hlinks : wideFormat.links oneBaseImage 0x1000 = [0x1020] := by decide +kernel
  have hend : wideFormat.links oneBaseImage 0x1020 = [] := by decide +kernel
  have hacyclic : ∀ a, ReflTransGen (wideFormat.Follows oneBaseImage) 0x1000 a →
      ¬ TransGen (wideFormat.Follows oneBaseImage) a a := by
    refine acyclic_of_link (show (0x1000 : Address) ≠ 0x1020 by decide) (fun b hb => ?_) fun b hb => ?_
    · rwa [Follows, hlinks, List.mem_singleton] at hb
    · rw [Follows, hend] at hb
      cases hb
  obtain ⟨-, hanswers, -⟩ := wideFormat.read_after oneBaseImage [0x1020, 0x1000]
  obtain ⟨_, rest, -, hrest, hbase⟩ := List.forall₂_cons_left_iff.mp hanswers
  obtain ⟨derived, _, hderived, -, rfl⟩ := List.forall₂_cons_left_iff.mp hrest
  refine ⟨?_, by decide +kernel⟩
  rw [hbase]
  exact congrArg some (hderived.2.2 hacyclic)

/-! ## A list that is cut off -/

/-- The class `A` at 0x1000 with the single base `B`, and the record of `B` at 0x1020 with a list of two bases, of
    which the first one is `A` and the second one is cut off by the end of the image. -/
def cutOffImage : Image where
  base := 0x1000
  region := .ofBytes ([0x9100, 0x1018, 0x1020].flatMap (littleBytes 8) ++ [0x31, 0x41, 0, 0, 0x31, 0x42, 0, 0] ++
    [0x9200, 0x101C].flatMap (littleBytes 8) ++ [0, 2].flatMap (littleBytes 4) ++
    [0x1000, 2].flatMap (littleBytes 8)).toArray

/-- **The base of a descriptor may lose its name though no cycle of bases can be reached from it**: `A` has the base
    `B`, and `B` has none.  But when `B` was read before, `A` was read while it was underway. -/
theorem read_after_cutOff :
    let answers := (readEach (wideFormat.read cutOffImage) [0x1020, 0x1000] []).1
    (∀ a, ReflTransGen (wideFormat.HasBase cutOffImage) 0x1000 a → ¬ TransGen (wideFormat.HasBase cutOffImage) a a) ∧
      answers[1]? ≠ some (wideFormat.read cutOffImage 0x1000 []).1 := by
  intro answers
  have hderived : (wideFormat.read cutOffImage 0x1000 []).1 =
      some ⟨0x1000, "A", "1A", .single ⟨0x1020, some "B", 0, .publicBase⟩, 0x9100⟩ := by decide +kernel
  have hbase : (wideFormat.read cutOffImage 0x1020 []).1 = some ⟨0x1020, "B", "1B", .unknown, 0x9200⟩ := by
    decide +kernel
  have hanswers : answers[1]? = some (some ⟨0x1000, "A", "1A", .single ⟨0x1020, none, 0, .publicBase⟩, 0x9100⟩) := by
    decide +kernel
  refine ⟨acyclic_of_link (show (0x1000 : Address) ≠ 0x1020 by decide) (fun b hb => ?_) fun b hb => ?_,
    by rw [hderived, hanswers]; decide⟩
  · obtain ⟨d, hd, hb⟩ := hb
    obtain rfl := Option.some.inj (hderived.symm.trans hd)
    simpa [TypeDescriptor.baseAddresses, DescriptorKind.bases] using hb
  · obtain ⟨d, hd, hb⟩ := hb
    obtain rfl := Option.some.inj (hbase.symm.trans hd)
    simp [TypeDescriptor.baseAddresses, DescriptorKind.bases] at hb

end RecordFormat

end ClassRecovery

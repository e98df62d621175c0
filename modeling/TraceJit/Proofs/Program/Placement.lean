import Mathlib.Algebra.BigOperators.Ring.List
import TraceJit.Proofs.Program.WellFormed
import TraceJit.Proofs.Toml.Document

/-!
Where the methods of an image lie. Methods that have no address of their own are laid out one behind
the other from the base on, each in whole words, across all classes and without regard to the
methods in between that have an address. As long as the addresses do not run out, no two of them
share a byte.
-/

namespace TraceJit

/-! ### Room and ranges -/

/-- Bytes that code of so many units takes up: two for each unit, in whole words, and one word where
there is none. -/
def roomFor (units : Nat) : Nat := if units = 0 then 4 else (2 * units + 3) / 4 * 4

theorem roomFor_pos (units : Nat) : 0 < roomFor units := by
  unfold roomFor
  split <;> omega

theorem dvd_roomFor (units : Nat) : 4 ∣ roomFor units := by
  unfold roomFor
  split <;> omega

theorem le_roomFor (units : Nat) : 2 * units ≤ roomFor units := by
  unfold roomFor
  split <;> omega

namespace Method

def room (m : Method) : Nat := roomFor m.code.size

/-- The address is that of a byte of the code. -/
def Occupies (m : Method) (a : Nat) : Prop :=
  m.addr.toNat ≤ a ∧ a < m.addr.toNat + 2 * m.code.size

def decl (m : Method) : MethodDecl :=
  { name := m.name, code := m.code.toList, native := m.native, slot := m.slot, addr := m.addr }

end Method

/-- The room of the first methods. -/
def roomBefore (ms : List Method) (k : Nat) : Nat := ((ms.take k).map (·.room)).sum

theorem roomBefore_succ {ms : List Method} {k : Nat} {m : Method} (h : ms[k]? = some m) :
    roomBefore ms (k + 1) = roomBefore ms k + m.room := by
  simp [roomBefore, List.take_add_one, h]

theorem roomBefore_mono {ms : List Method} {j k : Nat} (h : j ≤ k) :
    roomBefore ms j ≤ roomBefore ms k := by
  obtain ⟨more, rfl⟩ := Nat.exists_eq_add_of_le h
  simp [roomBefore, List.take_add]

/-- No method lies behind the end. -/
theorem roomBefore_le (ms : List Method) (k : Nat) :
    roomBefore ms k ≤ (ms.map (·.room)).sum := by
  conv_rhs => rw [← List.take_append_drop k ms, List.map_append, List.sum_append]
  exact Nat.le_add_right ..

theorem dvd_roomBefore (ms : List Method) (k : Nat) : 4 ∣ roomBefore ms k := by
  apply List.dvd_sum
  intro n hn
  obtain ⟨m, _, rfl⟩ := List.mem_map.mp hn
  exact dvd_roomFor _

/-- The methods lie one behind the other from the base on. -/
structure LaidOut (base : UInt64) (ms : List Method) : Prop where
  first : ∀ m, ms[0]? = some m → m.addr = base
  next : ∀ k m n, ms[k]? = some m → ms[k + 1]? = some n → n.addr.toNat = m.addr.toNat + m.room
  ascending : ms.Pairwise fun m n => m.addr < n.addr
  aligned : ∀ m ∈ ms, m.addr.toNat % 4 = base.toNat % 4
  apart : ms.Pairwise fun m n => ∀ a, ¬(m.Occupies a ∧ n.Occupies a)

section Layout

variable {base : UInt64} {ms : List Method}
  (hAddr : ∀ k m, ms[k]? = some m → m.addr = base + UInt64.ofNat (roomBefore ms k))
  (hFits : base.toNat + (ms.map (·.room)).sum ≤ 2 ^ 64)
include hAddr hFits

/-- Addresses do not wrap. -/
theorem toNat_addr {k : Nat} {m : Method} (h : ms[k]? = some m) :
    m.addr.toNat = base.toNat + roomBefore ms k := by
  -- The method itself takes room, so what lies before it ends below the limit and does not wrap.
  have hPos : 0 < m.room := roomFor_pos _
  have hLe := roomBefore_le ms (k + 1)
  rw [roomBefore_succ h] at hLe
  rw [hAddr k m h, UInt64.toNat_add, UInt64.toNat_ofNat']
  omega

/-- A later method lies behind the room of an earlier one. -/
theorem room_behind {j k : Nat} (hjk : j < k) {m n : Method} (hm : ms[j]? = some m)
    (hn : ms[k]? = some n) : m.addr.toNat + m.room ≤ n.addr.toNat := by
  have hLater : roomBefore ms (j + 1) ≤ roomBefore ms k := roomBefore_mono hjk
  rw [roomBefore_succ hm] at hLater
  rw [toNat_addr hAddr hFits hm, toNat_addr hAddr hFits hn]
  omega

/-- So methods do not overlap. -/
theorem pairwise_behind : ms.Pairwise fun m n => m.addr.toNat + m.room ≤ n.addr.toNat := by
  rw [List.pairwise_iff_getElem]
  intro j k hj hk hjk
  exact room_behind hAddr hFits hjk (List.getElem?_eq_getElem hj) (List.getElem?_eq_getElem hk)

/-- As long as the addresses do not run out, methods that follow each other are laid out. -/
theorem laidOut : LaidOut base ms where
  first m hm := by simpa [roomBefore] using hAddr 0 m hm
  next k m n hm hn := by
    rw [toNat_addr hAddr hFits hm, toNat_addr hAddr hFits hn, roomBefore_succ hm, Nat.add_assoc]
  ascending := (pairwise_behind hAddr hFits).imp fun {m n} hBehind => by
    have hPos : 0 < m.room := roomFor_pos _
    rw [UInt64.lt_iff_toNat_lt]
    omega
  aligned m hm := by
    obtain ⟨k, hk⟩ := List.getElem?_of_mem hm
    have hWords := dvd_roomBefore ms k
    rw [toNat_addr hAddr hFits hk]
    omega
  apart := (pairwise_behind hAddr hFits).imp fun {m n} hBehind a => by
    have hCode : 2 * m.code.size ≤ m.room := le_roomFor _
    rintro ⟨⟨_, hBefore⟩, hFrom, _⟩
    omega

end Layout

/-! ### Placing -/

namespace ImageText

def described (d : ImageText) : List MethodText := d.classes.flatMap (·.methods)

/-- Of a list that goes along with described methods, the places without an address of their own. -/
def unplaced {α : Type} (xs : List MethodText) (list : List α) : List α :=
  ((xs.zip list).filter fun e => e.1.addr == 0).map (·.2)

theorem unplaced_map {α β : Type} (f : α → β) (xs : List MethodText) (list : List α) :
    unplaced xs (list.map f) = (unplaced xs list).map f := by
  simp only [unplaced, List.zip_map_right, List.filter_map, List.map_map]
  rfl

theorem unplaced_cons {α : Type} (x : MethodText) (xs : List MethodText) (a : α) (list : List α) :
    unplaced (x :: xs) (a :: list) =
      if x.addr = 0 then a :: unplaced xs list else unplaced xs list := by
  by_cases hAddr : x.addr = 0 <;> simp [unplaced, hAddr]

theorem extent_eq (x : MethodText) : x.extent = roomFor x.units.length := by
  simp [MethodText.extent, roomFor, List.isEmpty_iff]

/-- Methods are placed one after the other. -/
theorem placeMethods_append (free : UInt64) (xs ys : List MethodText) :
    placeMethods free (xs ++ ys) =
      ((placeMethods free xs).1 ++ (placeMethods (placeMethods free xs).2 ys).1,
        (placeMethods (placeMethods free xs).2 ys).2) := by
  induction xs generalizing free with
  | nil => rfl
  | cons x xs ih => simp [placeMethods, ih]

/-- Classes make no difference to where methods are placed. -/
theorem methods_placeClasses (free : UInt64) (cs : List ClassText) :
    (placeClasses free cs).flatMap (·.methods) =
      (placeMethods free (cs.flatMap (·.methods))).1 := by
  induction cs generalizing free with
  | nil => rfl
  | cons c cs ih =>
      rw [List.flatMap_cons, placeMethods_append, placeClasses, List.flatMap_cons, ih]

theorem placeMethods_cons (free : UInt64) (x : MethodText) (xs : List MethodText) :
    (placeMethods free (x :: xs)).1 =
      (x.place free).1 :: (placeMethods (x.place free).2 xs).1 := rfl

/-- The place of a method without an address is behind those before it that have none either. -/
theorem addr_of_unplaced (free : UInt64) (xs : List MethodText) {k : Nat} {m : MethodDecl}
    (h : (unplaced xs (placeMethods free xs).1)[k]? = some m) :
    m.addr = free + UInt64.ofNat (((unplaced xs (placeMethods free xs).1).take k).map
      fun m => roomFor m.code.length).sum := by
  -- A method without an address moves the free one on, a method with an address leaves it.
  induction xs generalizing free k with
  | nil => cases h
  | cons x xs ih =>
      rw [placeMethods_cons, unplaced_cons] at h ⊢
      by_cases hAddr : x.addr = 0
      · have hFree : (x.place free).2 = free + UInt64.ofNat (roomFor x.units.length) := by
          simp [MethodText.place, hAddr, extent_eq]
        have hDecl : (x.place free).1.addr = free ∧ (x.place free).1.code = x.units := by
          simp [MethodText.place, hAddr]
        rw [if_pos hAddr] at h ⊢
        cases k with
        | zero =>
            obtain rfl := Option.some.inj h
            simp [hDecl.1]
        | succ k =>
            rw [ih _ h, List.take_succ_cons, List.map_cons, List.sum_cons, hDecl.2,
              UInt64.ofNat_add, ← UInt64.add_assoc, ← hFree]
      · have hFree : (x.place free).2 = free := by simp [MethodText.place, hAddr]
        rw [if_neg hAddr] at h ⊢
        rw [hFree] at h ⊢
        exact ih free h

theorem decl_link (m : MethodDecl) (owner : Option String) (linkage : Linkage) :
    (m.link owner linkage).decl = m := rfl

/-- Linking keeps the methods as they were placed. -/
theorem map_decl_world (d : ImageText) :
    d.world.methods.map (·.decl) = (placeMethods d.base d.described).1 := by
  rw [described, ← methods_placeClasses, world]
  simp only [World.methods, World.link, List.map_nil, List.append_nil, List.map_flatMap,
    List.flatMap_map, List.map_map]
  refine congrArg (List.flatMap · _) (funext fun c => ?_)
  exact List.map_id'' (fun m => decl_link m _ _) _

/-- The methods of a linked description that have no address of their own. -/
def automatic (d : ImageText) : List Method := unplaced d.described d.world.methods

/-- A method without an address of its own lies behind those before it. -/
theorem addr_of_automatic (d : ImageText) {k : Nat} {m : Method} (h : d.automatic[k]? = some m) :
    m.addr = d.base + UInt64.ofNat (roomBefore d.automatic k) := by
  have hDecls : unplaced d.described (placeMethods d.base d.described).1 =
      d.automatic.map (·.decl) := by
    rw [← map_decl_world, unplaced_map]
    rfl
  have hPlaced := addr_of_unplaced d.base d.described (k := k) (m := m.decl)
    (by rw [hDecls, List.getElem?_map, h, Option.map_some])
  rw [hDecls, ← List.map_take, List.map_map] at hPlaced
  exact hPlaced

/-- The methods of the image are those described, in the same order. -/
theorem declares_world (d : ImageText) :
    List.Forall₂ (fun x m => MethodDecl.Declares m.decl x) d.described d.world.methods := by
  have hPlaced := declares_placeMethods d.base d.described
  rw [← map_decl_world, List.forall₂_map_right_iff] at hPlaced
  exact hPlaced

/-! ### The base -/

open Toml

/-- The word that a value says. -/
def wordOf (v : Value) : Option UInt64 := (Shape.word64 [] v).map (·.1)

/-- The base is one that a file gives under some spelling of its key, or the default where it gives
none. -/
def GivesBase (doc : Document) (base : UInt64) : Prop :=
  (∃ e ∈ doc.root, sameFolded "base_address" e.1 = true ∧ wordOf e.2 = some base) ∨
    (∀ e ∈ doc.root, sameFolded "base_address" e.1 = false) ∧ base = defaultBase

instance (doc : Document) (base : UInt64) : Decidable (GivesBase doc base) :=
  inferInstanceAs (Decidable (_ ∨ _))

/-- A base that is given is given under the exact key. -/
def HeedsBase (doc : Document) : Prop :=
  (∃ e ∈ doc.root, sameFolded "base_address" e.1 = true) → doc.defines ["base_address"] = true

instance (doc : Document) : Decidable (HeedsBase doc) := inferInstanceAs (Decidable (_ → _))

/-- No two fields of an image share a name, whatever the case. -/
theorem fieldsApart_fields : FieldsApart fields := by
  unfold FieldsApart
  decide +kernel

theorem wordOf_of_word64 {p : Path} {v : Value} {x : UInt64} {used : List Path}
    (h : Shape.word64 p v = some (x, used)) : wordOf v = some x := by
  cases v with
  | integer k =>
      cases h
      rfl
  | _ => cases h

/-- Only the field of the base sets the base. -/
theorem base_of_field {f : TableField ImageText} (hf : f ∈ fields) {p : Path} {v : Value}
    {a b : ImageText} {more : List Path} (h : f.read p v a = some (b, more)) :
    b.base = if f.name = "base_address" then (wordOf v).getD a.base else a.base := by
  simp only [fields, List.mem_cons, List.not_mem_nil, or_false] at hf
  obtain rfl | rfl | rfl | rfl := hf
  · obtain ⟨x, hx, rfl⟩ := read_field_eq_some h
    rw [wordOf_of_word64 hx]
    exact (if_pos rfl).symm
  all_goals
    obtain ⟨x, _, rfl⟩ := read_field_eq_some h
    exact (if_neg (by simp [field])).symm

/-- If the exact key is there, the base is the value of a key that stands for it. -/
theorem base_of_read {doc : Document} {d : ImageText} {used : List Path}
    (h : doc.read? shape = some (d, used)) (hDefined : doc.defines ["base_address"] = true) :
    ∃ e ∈ doc.root, sameFolded "base_address" e.1 = true ∧ wordOf e.2 = some d.base := by
  have hBase := record_get (·.base) (fun v x => (wordOf v).getD x) fieldsApart_fields
    (List.mem_cons_self ..) (fun f hf p v a b more hRead => base_of_field hf hRead) h
  have hRead : ∀ e ∈ doc.root.filter fun e => sameFolded "base_address" e.1,
      ∃ x, wordOf e.2 = some x := by
    intro e he
    obtain ⟨hMem, hName⟩ := List.mem_filter.mp he
    obtain ⟨a, b, more, hField⟩ := exists_read_of_record fieldsApart_fields h hMem
      (List.mem_cons_self ..) hName
    obtain ⟨x, hx, _⟩ := read_field_eq_some hField
    exact ⟨x, wordOf_of_word64 hx⟩
  have hSome : doc.root.filter (fun e => sameFolded "base_address" e.1) ≠ [] := by
    obtain ⟨v, hv⟩ := Option.isSome_iff_exists.mp hDefined
    exact List.ne_nil_of_mem (List.mem_filter.mpr ⟨Table.mem_of_lookup hv, sameFolded_iff.mpr rfl⟩)
  obtain ⟨e, he, hWord⟩ := exists_mem_foldl_getD hRead hSome 0
  obtain ⟨hMem, hName⟩ := List.mem_filter.mp he
  exact ⟨e, hMem, hName, hBase ▸ hWord⟩

/-- The base of a description is the given one where that is looked for under its key, and the
default otherwise. -/
theorem read_eq_ok {bytes : List UInt8} {d : ImageText} (h : read bytes = .ok d) :
    ∃ doc, Document.parse? bytes = some doc ∧ (HeedsBase doc → GivesBase doc d.base) ∧
      (¬HeedsBase doc → d.base = defaultBase) := by
  unfold read at h
  cases hText : Toml.read shape bytes with
  | error e =>
      rw [hText] at h
      cases h
  | ok r =>
      obtain ⟨d', doc⟩ := r
      rw [hText] at h
      obtain ⟨used, hParse, hRead, _⟩ := Toml.read_eq_ok hText
      refine ⟨doc, hParse, ?_⟩
      obtain rfl := Except.ok.inj h
      dsimp only
      by_cases hDefined : doc.defines ["base_address"] = true
      · rw [if_pos hDefined]
        exact ⟨fun _ => .inl (base_of_read hRead hDefined),
          fun hNot => absurd (fun _ => hDefined) hNot⟩
      · rw [if_neg hDefined]
        refine ⟨fun hHeeds => .inr ⟨fun e he => ?_, rfl⟩, fun _ => rfl⟩
        rw [← Bool.not_eq_true]
        exact fun hName => hDefined (hHeeds ⟨e, he, hName⟩)

end ImageText

/-- The methods of an accepted image are the described ones, in order, and those with an address of
their own keep it. The others are laid out from the base on, as long as there are addresses. The
base is the given one, unless that is given under other spellings of its key only: then it is the
default. -/
theorem Image.load_placed {bytes : List UInt8} {i : Image} (h : Image.load bytes = .ok i) :
    ∃ doc d, Toml.Document.parse? bytes = some doc ∧ ImageText.read bytes = .ok d ∧
      (ImageText.HeedsBase doc → ImageText.GivesBase doc d.base) ∧
      (¬ImageText.HeedsBase doc → d.base = ImageText.defaultBase) ∧
      List.Forall₂ (fun x m => MethodDecl.Declares m.decl x) d.described i.world.methods ∧
      (d.base.toNat + ((ImageText.unplaced d.described i.world.methods).map (·.room)).sum ≤ 2 ^ 64 →
        LaidOut d.base (ImageText.unplaced d.described i.world.methods)) := by
  obtain ⟨d, hRead, hLink⟩ := Image.load_eq_ok h
  obtain ⟨doc, hParse, hGiven, hDefault⟩ := ImageText.read_eq_ok hRead
  obtain ⟨_, rfl⟩ := ImageText.link_eq_ok_iff.mp hLink
  exact ⟨doc, d, hParse, hRead, hGiven, hDefault, d.declares_world,
    laidOut fun k m hm => d.addr_of_automatic hm⟩

/-- Methods with code, with an address of their own and with neither, in two classes. -/
def ImageText.scattered : ImageText :=
  { base := 8192,
    classes :=
      [{ descriptor := "A",
         methods := [{ name := "f", code := "e" }, { name := "g", addr := 64 }] },
       { descriptor := "B", methods := [{ name := "f" }] }] }

/-- The file of that description. -/
def ImageText.scatteredBytes : List UInt8 :=
  ("base_address=8192\n[[class]]\ndescriptor=\"A\"\n[[class.method]]\nname=\"f\"\ncode=\"e\"\n" ++
    "[[class.method]]\nname=\"g\"\naddr=64\n" ++
    "[[class]]\ndescriptor=\"B\"\n[[class.method]]\nname=\"f\"").toUTF8.data.toList

/-- What the image says. -/
theorem ImageText.read_scattered : read scatteredBytes = .ok scattered := by decide +kernel

/-- An image with a base of its own, where one of three methods has its own address. -/
theorem Image.load_placed_scattered :
    ∃ i, Image.load ImageText.scatteredBytes = .ok i ∧
      i.world.methods.map (·.addr) = [8192, 64, 8196] ∧
        ∃ d, ImageText.read ImageText.scatteredBytes = .ok d ∧
          d.base.toNat + ((ImageText.unplaced d.described i.world.methods).map (·.room)).sum ≤
            2 ^ 64 ∧
          LaidOut d.base (ImageText.unplaced d.described i.world.methods) := by
  have hNone : ImageText.scattered.problems = [] := by decide +kernel
  have hLoad : Image.load ImageText.scatteredBytes =
      ImageText.scattered.link.mapError .problems := by
    rw [Image.load, ImageText.read_scattered]
  rw [ImageText.link_eq_ok_iff.mpr ⟨hNone, rfl⟩] at hLoad
  obtain ⟨_, d, _, hRead, _, _, _, hLaid⟩ := Image.load_placed hLoad
  obtain rfl : d = ImageText.scattered := Except.ok.inj (hRead.symm.trans ImageText.read_scattered)
  have hFits : ImageText.scattered.base.toNat +
      ((ImageText.unplaced ImageText.scattered.described ImageText.scattered.world.methods).map
        (·.room)).sum ≤ 2 ^ 64 := by
    decide +kernel
  exact ⟨_, hLoad, by decide +kernel, _, hRead, hFits, hLaid hFits⟩

/-- A method without an address, in an image with its base under a key in capitals. -/
def ImageText.capitalBytes : List UInt8 :=
  ("BASE_ADDRESS=8192\n[[class]]\ndescriptor=\"A\"\n[[class.method]]\nname=\"f\"\ncode=\"e\""
    ).toUTF8.data.toList

def ImageText.capital : ImageText :=
  { base := defaultBase
    classes := [{ descriptor := "A", methods := [{ name := "f", code := "e" }] }] }

/-- The base under a key in capitals is read and then dropped, so that the method does not lie
there. -/
theorem Image.load_drops_base :
    ∃ doc d i, Toml.Document.parse? ImageText.capitalBytes = some doc ∧
      ImageText.read ImageText.capitalBytes = .ok d ∧ Image.load ImageText.capitalBytes = .ok i ∧
      ImageText.GivesBase doc 8192 ∧ ¬ImageText.GivesBase doc ImageText.defaultBase ∧
      8192 + ((ImageText.unplaced d.described i.world.methods).map (·.room)).sum ≤ 2 ^ 64 ∧
      i.world.methods.map (·.addr) = [ImageText.defaultBase] ∧
      ¬LaidOut 8192 (ImageText.unplaced d.described i.world.methods) := by
  have hRead : ImageText.read ImageText.capitalBytes = .ok ImageText.capital := by decide +kernel
  have hNone : ImageText.capital.problems = [] := by decide +kernel
  have hLoad : Image.load ImageText.capitalBytes = ImageText.capital.link.mapError .problems := by
    rw [Image.load, hRead]
  rw [ImageText.link_eq_ok_iff.mpr ⟨hNone, rfl⟩] at hLoad
  have hGiven : (Toml.Document.parse? ImageText.capitalBytes).any (fun doc =>
      decide (ImageText.GivesBase doc 8192 ∧ ¬ImageText.GivesBase doc ImageText.defaultBase)) =
        true := by
    decide +kernel
  obtain ⟨doc, hParse, hGiven⟩ := (Option.any_eq_true _ _).mp hGiven
  obtain ⟨hThere, hElsewhere⟩ := of_decide_eq_true hGiven
  have hAddr : (ImageText.unplaced ImageText.capital.described
      ImageText.capital.world.methods).map (·.addr) = [ImageText.defaultBase] := by
    decide +kernel
  refine ⟨doc, _, _, hParse, hRead, hLoad, hThere, hElsewhere, by decide +kernel,
    by decide +kernel, fun hLaid => ?_⟩
  cases hMethods : ImageText.unplaced ImageText.capital.described
      ImageText.capital.world.methods with
  | nil =>
      rw [hMethods] at hAddr
      cases hAddr
  | cons m rest =>
      rw [hMethods] at hAddr
      have hFirst : m.addr = 8192 := hLaid.first m (by rw [hMethods]; rfl)
      rw [List.map_cons, hFirst] at hAddr
      exact absurd (List.cons.inj hAddr).1 (by decide)

end TraceJit

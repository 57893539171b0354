import BitStore.Proofs.Store.Workspace

namespace BitStore

open BitStore.Action

namespace Workspace

variable {w : Workspace} {t : Store} {i j n p q : Nat}

section Vectors

lemma Secure.padded (hw : w.Secure) (i : Nat) :
    paddedBytes? (w.vectors i).len = some (w.vectors i).reserved :=
  BitVector.padded (hw.fits i)

lemma Secure.resized_inPlace (hw : w.Secure) {len padded : Nat} (hlen : paddedBytes? len = some padded)
    (hstays : Held.needsStorage (w.vectors i) len (w.vectors i).reserved padded = false) :
    w.store.Backs (Function.update w.claim (.vector i)
      ((w.vectors i).data.map fun p => (p, BitVector.reserved ⟨len, (w.vectors i).data⟩))) w.issuer := by
  cases hdata : (w.vectors i).data with
  | none =>
    rw [Option.map_none, ← claim_empty hdata, Function.update_eq_self]
    exact hw.backs
  | some p =>
    have hle : padded ≤ (w.vectors i).reserved := by simpa [Held.needsStorage, hdata] using hstays
    refine hw.backs.shrunk (claim_vector hdata) ?_
    rwa [BitVector.reserved, hlen, Option.getD_some]

lemma Secure.resized_moved (hw : w.Secure) {len padded m : Nat} (hlen : paddedBytes? len = some padded)
    (ht : w.store.Trades t (w.store.source w.issuer (w.pointer (.vector i))) (w.pointer (.vector i)) (some (q, m)))
    (hm : padded ≤ m) (first : Nat) :
    w.Advances (w.withHeld i ⟨⟨len, some q⟩, Held.clearBits t q (padded / 8) first⟩) (w.pointer (.vector i)) none := by
  have hreserved : BitVector.reserved ⟨len, some q⟩ = padded := by
    rw [BitVector.reserved, hlen, Option.getD_some]
  have hcleared := ht.write (ht.sound.clearBits ht.trade.mem (padded / 8) first (by omega))
  refine ⟨hw.withHeld hcleared.sound ?_ (fun hnone => by cases hnone) (paddedBytes?_eq_some_iff.mp hlen).1,
    hcleared.spares, hcleared.grows⟩
  exact hw.backs.traded hw.sound hcleared (hreserved.trans_le hm)

lemma Secure.resize (hw : w.Secure) (ht : w.store.Trusted) (now i len : Nat) :
    w.Advances (w.step (.resize now i len)) (w.pointer (.vector i)) none := by
  obtain ⟨r, h, ⟨_, hstate⟩, hresized⟩ := Held.resize_resized (hw.padded i) now len w.store
  obtain ⟨k, hk, hnames⟩ := hw.names (.vector i)
  change w.Advances (w.withHeld i ((Held.resize now len).run ⟨w.vectors i, w.store⟩).state) _ none
  rw [hstate]
  cases hresized with
  | tooLong _ =>
    rw [hw.withHeld_same]
    exact hw.stays _
  | refused hlen hblock =>
    rw [← pointer_vector] at hblock
    obtain ⟨e, rfl, hrefused⟩ := (Store.resizeBlock_settles hw.sound ht _ hnames).refused hblock
    rw [hw.withHeld_same]
    exact hw.refused hrefused _
  | inPlace hold hlen hstays _ =>
    obtain rfl := Option.some.inj (hold.symm.trans (hw.padded i))
    refine ⟨hw.withHeld hw.sound ?_ (fun hnone => ?_) (paddedBytes?_eq_some_iff.mp hlen).1,
      hw.sound.keeps_self.spares _, w.store.grows_self⟩
    · rw [hw.reissued_vector]
      exact hw.resized_inPlace hlen hstays
    · -- A vector without storage needs some for any length but 0.
      simpa [Held.needsStorage, show (w.vectors i).data = none from hnone] using hstays
  | moved _ _ hlen hblock _ =>
    rw [← pointer_vector] at hblock
    obtain ⟨m, hm, htrades, _⟩ := (Store.resizeBlock_settles hw.sound ht _ hnames).post hblock
    exact (hw.resized_moved hlen htrades hm _).withProfiler _

lemma Secure.emptied (hw : w.Secure) {i : Nat}
    (hgone : ((w.vectors i).data.elim (pure ()) Store.giveBack).Yields w.store (.ok ()) t) :
    w.Advances (w.withHeld i ⟨.empty, t⟩) (w.pointer (.vector i)) none := by
  cases hdata : (w.vectors i).data with
  | none =>
    rw [hdata] at hgone
    obtain ⟨_, rfl⟩ := hgone
    refine ⟨hw.withHeld hw.sound ?_ (fun _ => rfl) BitVector.empty_fits, hw.sound.keeps_self.spares _,
      w.store.grows_self⟩
    change w.store.Backs (Function.update w.claim (.vector i) none) w.issuer
    rw [← claim_empty hdata, Function.update_eq_self]
    exact hw.backs
  | some p =>
    obtain ⟨k, _, hnames⟩ := hw.names (.vector i)
    rw [hdata] at hgone
    have htrades := (Store.giveBack_ends hw.sound hnames).settles.post (by rw [pointer_vector, hdata]; exact hgone)
    refine ⟨hw.withHeld htrades.sound ?_ (fun _ => rfl) BitVector.empty_fits, htrades.spares, htrades.grows⟩
    exact hw.backs.dropped hw.sound htrades

lemma Secure.cleared (hw : w.Secure) (now i : Nat) : ∃ t profiler,
    ((w.vectors i).data.elim (pure ()) Store.giveBack).Yields w.store (.ok ()) t ∧
      w.step (.clear now i) = w.withHeld i ⟨.empty, { t with profiler := profiler }⟩ := by
  obtain ⟨r, h, ⟨_, hstate⟩, hcleared⟩ := Held.clear_cleared (hw.padded i) now w.store
  change ∃ t profiler, _ ∧ w.withHeld i ((Held.clear now).run ⟨w.vectors i, w.store⟩).state = _
  rw [hstate]
  cases hcleared with
  | refused hdata hgone =>
    -- What a vector stands on is always taken back.
    obtain ⟨k, _, hnames⟩ := hw.names (.vector i)
    rw [pointer_vector, hdata] at hnames
    obtain ⟨_, _, hfalse⟩ := (Store.giveBack_ends hw.sound hnames).settles.refused hgone
    exact hfalse.elim
  | done _ hgone _ => exact ⟨_, _, hgone, rfl⟩

lemma Secure.clear (hw : w.Secure) (now i : Nat) :
    w.Advances (w.step (.clear now i)) (w.pointer (.vector i)) none := by
  obtain ⟨t, profiler, hgone, heq⟩ := hw.cleared now i
  rw [heq]
  exact (hw.emptied hgone).withProfiler profiler

lemma Secure.setWord (hw : w.Secure) (i k : Nat) (x : UInt64) :
    w.Advances (w.step (.setWord i k x)) (w.pointer (.vector i)) none := by
  have hsame := hw.stays (w.pointer (.vector i))
  change w.Advances (w.withStore ((w.store.setWord (w.vectors i) k x).toOption.getD w.store)) _ none
  rw [Store.setWord]
  cases hdata : (w.vectors i).data with
  | none => exact hsame
  | some p =>
    simp only
    split
    · next hk =>
      obtain ⟨m, hm, hlive⟩ := hw.backs.backed _ _ _ (claim_vector hdata)
      have hwords := (w.vectors i).words_le_reserved
      rw [pointer_vector, hdata]
      exact hw.writes (hw.sound.setWords hlive _ (by omega))
    · exact hsame

lemma Secure.setBit (hw : w.Secure) (i k : Nat) (bit : Bool) :
    w.Advances (w.step (.setBit i k bit)) (w.pointer (.vector i)) none := by
  have hsame := hw.stays (w.pointer (.vector i))
  change w.Advances (w.withStore ((w.store.setBit (w.vectors i) k bit).toOption.getD w.store)) _ none
  rw [Store.setBit]
  split
  · cases hword : w.store.vectorWord (w.vectors i) (k / 64) with
    | error e => exact hsame
    | ok y => exact hw.setWord i (k / 64) (withBit y (k % 64) bit)
  · exact hsame

end Vectors

section Raws

lemma settled_ok {α : Type} {x : Action Store α} {a : α} (hx : x.Yields w.store (.ok a) t)
    (block : α → Option RawBlock) : w.settled j block (x.run w.store) = w.withRaw j (block a) t := by
  rw [settled, hx.1, hx.2]

lemma settled_error {α : Type} {x : Action Store α} {e : Stop} (hx : x.Yields w.store (.error e) t)
    (block : α → Option RawBlock) : w.settled j block (x.run w.store) = w.withStore t := by
  rw [settled, hx.1, hx.2]

lemma Secure.settled (hw : w.Secure) {x : Action Store Nat}
    (hx : x.Settles w.store (fun _ t => w.store.Refused t) fun q t => ∃ k, n ≤ k ∧
      w.store.Trades t (w.store.source w.issuer (w.pointer (.raw j))) (w.pointer (.raw j)) (some (q, k))) :
    w.Advances (w.settled j (fun q => some ⟨q, n⟩) (x.run w.store)) (w.pointer (.raw j)) none := by
  rcases hx with ⟨e, t, hyields, hrefused⟩ | ⟨q, t, hyields, k, hk, htrades⟩
  · rw [settled_error hyields]
    exact hw.refused hrefused _
  · rw [settled_ok hyields]
    exact ⟨hw.withRaw htrades.sound (hw.backs.traded hw.sound htrades hk), htrades.spares, htrades.grows⟩

lemma Secure.allocate (hw : w.Secure) (ht : w.store.Trusted) (hj : w.raws j = none) (n : Nat) :
    w.Advances (w.step (.allocate j n)) (w.pointer (.raw j)) none := by
  have hnull : w.pointer (.raw j) = 0 := Owner.pointer_none (by rw [claim, hj, Option.map_none])
  refine hw.settled ((Store.allocate_settles hw.sound ht n).mono (fun _ _ h => h) ?_)
  rintro q t ⟨k, hk, htrades, _⟩
  rw [hnull, Store.source, if_pos rfl]
  exact ⟨k, hk, htrades⟩

lemma Secure.resizeRaw (hw : w.Secure) (ht : w.store.Trusted) (j n : Nat) :
    w.Advances (w.step (.resizeRaw j n)) (w.pointer (.raw j)) none := by
  obtain ⟨_, _, hnames⟩ := hw.names (.raw j)
  refine hw.settled ((Store.resizeBlock_settles hw.sound ht n hnames).mono (fun _ _ h => h) ?_)
  rintro q t ⟨k, hk, htrades, _⟩
  exact ⟨k, hk, htrades⟩

lemma Secure.givenBack (hw : w.Secure) (j : Nat) : ∃ t,
    w.store.Trades t (w.store.source w.issuer (w.pointer (.raw j))) (w.pointer (.raw j)) none ∧
      w.step (.giveBack j) = w.withRaw j none t := by
  obtain ⟨_, _, hnames⟩ := hw.names (.raw j)
  obtain ⟨_, t, hyields, htrades⟩ := Store.giveBack_ends hw.sound hnames
  exact ⟨t, htrades, settled_ok hyields _⟩

lemma Secure.giveBack (hw : w.Secure) (j : Nat) : w.Advances (w.step (.giveBack j)) (w.pointer (.raw j)) none := by
  obtain ⟨t, htrades, heq⟩ := hw.givenBack j
  rw [heq]
  exact ⟨hw.withRaw htrades.sound (hw.backs.dropped hw.sound htrades), htrades.spares, htrades.grows⟩

lemma Secure.write (hw : w.Secure) {first : Nat} {r : RawBlock} (hr : w.raws j = some r) (hn : first + n ≤ r.size)
    (f : Nat → UInt8) : w.Advances (w.step (.write j first f n)) (w.pointer (.raw j)) none := by
  have hclaim : w.claim (.raw j) = some (r.address, r.size) := by rw [claim, hr, Option.map_some]
  obtain ⟨k, hk, hlive⟩ := hw.backs.backed _ _ _ hclaim
  change w.Advances (w.withStore (w.store.setBytes (w.pointer (.raw j)) first f n)) _ none
  rw [pointer, Owner.pointer_some hclaim]
  exact hw.writes (hw.sound.setBytes hlive f (hn.trans hk))

end Raws

section Runs

lemma Secure.enablePool (hw : w.Secure) {m : Machine} {source : PageSource} {size : Nat}
    (hd : w.Permits (.enablePool m source size)) (p : Nat) :
    w.Advances (w.step (.enablePool m source size)) p (Deed.region? w.store (.enablePool m source size)) := by
  change w.Advances (w.withStore ((Store.enablePool m source size).run w.store).state) p _
  rcases Store.enablePool_cases m source size w.store with ⟨_, _, hsame⟩ | ⟨hpool, a, ha, _, henabled⟩
  · rw [hsame]
    exact hw.keeps hw.sound.keeps_self ⟨.refl _, fun a ha => .inr (by rw [ha]; rfl)⟩ p
  · have hadded : a.region ∈ Deed.region? w.store (.enablePool m source size) := by
      rw [Deed.region?, Store.poolEnabled, hpool, ha]
      rfl
    have hregion := hd.region _ hadded
    rw [henabled]
    have hfresh : a.Fresh := ⟨hregion.placed, Store, w.store, m, source, size, ha⟩
    refine hw.keeps (hw.sound.enabled hpool hfresh hregion) ⟨.refl _, ?_⟩ p
    rintro _ ⟨⟩
    exact .inl hadded

lemma Secure.profile (hw : w.Secure) (profiler : Profiler) (p : Nat) :
    w.Advances (w.step (.profile profiler)) p none :=
  hw.keeps ⟨hw.sound.withProfiler profiler, fun _ => rfl, fun _ _ _ _ _ _ => rfl⟩
    (w.store.grows_self.withProfiler profiler) p

theorem Secure.step (hw : w.Secure) (ht : w.store.Trusted) {d : Deed} (hd : w.Permits d) :
    w.Advances (w.step d) (d.owner?.elim 0 w.pointer) (d.region? w.store) := by
  cases d with
  | resize now i len => exact hw.resize ht now i len
  | clear now i => exact hw.clear now i
  | setBit i k bit => exact hw.setBit i k bit
  | setWord i k x => exact hw.setWord i k x
  | allocate j n => exact hw.allocate ht hd.fair n
  | resizeRaw j n => exact hw.resizeRaw ht j n
  | giveBack j => exact hw.giveBack j
  | write j first f n =>
    obtain ⟨r, hr, hn⟩ := hd.fair
    exact hw.write hr hn f
  | enablePool m source size => exact hw.enablePool hd 0
  | profile profiler => exact hw.profile profiler 0

lemma on_secure (platform : Platform) (now : Nat) : (on platform now).Secure where
  sound := by
    refine ⟨⟨fun p m hp => ?_, fun p m q n hp => ?_⟩, fun a ha => ?_, fun a ha => ?_⟩
    · cases Std.HashMap.getElem?_empty.symm.trans hp
    · cases Std.HashMap.getElem?_empty.symm.trans hp
    · cases ha
    · cases ha
  backs := by
    refine ⟨?_, ?_, ?_⟩
    · rintro (i | j) p n h <;> cases h
    · rintro (i | j) o' p n n' h <;> cases h
    · rintro (_ | _) p k h
      · cases Std.HashMap.getElem?_empty.symm.trans h
      · cases h
  bare _ _ := rfl
  fits _ := BitVector.empty_fits

theorem Reached.secure (hw : w.Reached) : w.Secure := by
  induction hw with
  | start platform now => exact on_secure platform now
  | step d _ ht hd ih => exact (ih.step ht hd).secure

end Runs

end Workspace

end BitStore

import DronesmithEngine.MavlinkGenerator
import DronesmithEngine.Regexes

/-!
# Addresses of the link

`Serve` of `fmulink/fmulink.go` opens the link to the vehicle, at an address
of UDP or a serial device.  Its pattern decides which, by the length of the
numbers in an address and not by their values.
-/

namespace DronesmithEngine.Fmulink

open RegularExpression Regexes
open Generator (Text Atoi decimal)

/-! ## Opening the link -/

def DEFAULT_BAUD : ℤ := 57600

/-- `\d` -/
def digit : RegularExpression Char := oneOf "0123456789".toList

/-- `^(((\d{1,3}\.){3}\d)|localhost):\d{1,5}$` -/
def UDP_REGEX : RegularExpression Char :=
  ((repeated digit 1 3 * char '.') ^ 3 * digit +
    literal "localhost".toList) * char ':' * repeated digit 1 5

/-- The calls that open a link.  A remote address that cannot be resolved is
passed on as nil. -/
inductive LinkCall (UDPAddr : Type)
  | ListenUDP (laddr : UDPAddr)
  | DialUDP (laddr : UDPAddr) (raddr : Option UDPAddr)
  | OpenPort (Name : Text) (Baud : ℤ)

structure LinkEnv (UDPAddr : Type) where
  Remote : Text
  ResolveUDPAddr : Text → Option UDPAddr

/-- The part before the first colon and, if there is one, that after it. -/
def splitColon (addr : Text) : Text × Option Text :=
  match addr.dropWhile (· ≠ ':') with
  | [] => (addr, none)
  | _ :: rest => (addr.takeWhile (· ≠ ':'), some rest)

def baud : Option Text → ℤ
  | none => DEFAULT_BAUD
  | some cfg =>
      match Atoi cfg with
      | .ok baud => baud
      | .error _ => DEFAULT_BAUD

/-- The call that `Serve` opens the link with.  There is none when the address
cannot be resolved, which panics. -/
def Serve {UDPAddr : Type} (env : LinkEnv UDPAddr) (addr : Text) :
    Option (LinkCall UDPAddr) :=
  if UDP_REGEX.rmatch addr then
    (env.ResolveUDPAddr addr).map fun udpAddr =>
      if env.Remote ≠ [] then
        .DialUDP udpAddr (env.ResolveUDPAddr env.Remote)
      else .ListenUDP udpAddr
  else
    let (name, cfg) := splitColon addr
    some (.OpenPort name (baud cfg))

/-! ## Addresses -/

structure Numeral where
  digits : Text
  nonempty : digits ≠ []
  all_isDigit : ∀ c ∈ digits, c.isDigit = true

def Numeral.value (n : Numeral) : ℕ := Nat.ofDigitChars 10 n.digits 0

inductive Host
  | localhost
  | quad (a b c d : Numeral)

structure HostPort where
  host : Host
  port : Numeral

namespace Host

def text : Host → Text
  | .localhost => "localhost".toList
  | .quad a b c d =>
      a.digits ++ '.' :: (b.digits ++ '.' :: (c.digits ++ '.' :: d.digits))

theorem text_quad (a b c d : Numeral) :
    (quad a b c d).text =
      a.digits ++ '.' :: (b.digits ++ '.' :: (c.digits ++ '.' :: d.digits)) :=
  rfl

def InRange : Host → Prop
  | .localhost => True
  | .quad a b c d =>
      a.value ≤ 255 ∧ b.value ≤ 255 ∧ c.value ≤ 255 ∧ d.value ≤ 255

/-- Three numbers have at most three digits, and the last one has one. -/
def Short : Host → Prop
  | .localhost => True
  | .quad a b c d =>
      a.digits.length ≤ 3 ∧ b.digits.length ≤ 3 ∧ c.digits.length ≤ 3 ∧
        d.digits.length = 1

end Host

namespace HostPort

def text (h : HostPort) : Text := h.host.text ++ ':' :: h.port.digits

def InRange (h : HostPort) : Prop :=
  h.host.InRange ∧ 1 ≤ h.port.value ∧ h.port.value ≤ 65535

def Short (h : HostPort) : Prop :=
  h.host.Short ∧ h.port.digits.length ≤ 5

end HostPort

def IsUDPAddress (addr : Text) : Prop :=
  ∃ h : HostPort, h.text = addr ∧ h.InRange

def number (cfg : Text) : Option ℤ :=
  match cfg with
  | '-' :: digits => (decimal digits).map fun n : ℕ => -(n : ℤ)
  | '+' :: digits => (decimal digits).map fun n : ℕ => (n : ℤ)
  | digits => (decimal digits).map fun n : ℕ => (n : ℤ)

/-- The number after the first colon, of any size. -/
def givenBaud (addr : Text) : Option ℤ := (splitColon addr).2.bind number

/-- Addresses of UDP get a link of UDP, and all others the serial device with
the baud rate that is given. -/
structure Selects {UDPAddr : Type} (env : LinkEnv UDPAddr) (addr : Text) :
    Prop where
  udp : IsUDPAddress addr →
    (∀ Name Baud, Serve env addr ≠ some (.OpenPort Name Baud)) ∧
      ∀ laddr, env.ResolveUDPAddr addr = some laddr →
        Serve env addr = some (.ListenUDP laddr) ∨
          ∃ raddr, Serve env addr = some (.DialUDP laddr raddr)
  serial : ¬ IsUDPAddress addr →
    Serve env addr =
      some (.OpenPort (addr.takeWhile (· ≠ ':'))
        ((givenBaud addr).getD DEFAULT_BAUD))

def FitsInt (n : ℤ) : Prop := -2 ^ 63 ≤ n ∧ n < 2 ^ 63

instance (n : ℤ) : Decidable (FitsInt n) :=
  inferInstanceAs (Decidable (_ ∧ _))

/-- In an address of numbers, these are in range exactly when they are short;
and a baud rate fits an `int`. -/
structure Fits (addr : Text) : Prop where
  short : ∀ h : HostPort, h.text = addr → (h.InRange ↔ h.Short)
  baud : ¬ IsUDPAddress addr →
    ∀ n ∈ givenBaud addr, FitsInt n

/-! ## The pattern -/

theorem mem_digits_iff {c : Char} :
    c ∈ "0123456789".toList ↔ c.isDigit = true := by
  constructor
  · have hall : "0123456789".toList.all Char.isDigit = true := by decide
    exact List.all_eq_true.mp hall c
  · intro hc
    obtain ⟨hlow, hhigh⟩ : 48 ≤ c.toNat ∧ c.toNat ≤ 57 := by
      simpa [Char.isDigit, UInt32.le_iff_toNat_le] using hc
    have hall : ∀ k < 10, Char.ofNat (48 + k) ∈ "0123456789".toList := by
      decide
    have hmem := hall (c.toNat - 48) (by omega)
    rwa [Nat.add_sub_cancel' hlow, Char.ofNat_toNat] at hmem

section

variable {addr : Text}

theorem mem_digits_repeated {lo hi : ℕ} :
    addr ∈ (repeated digit lo hi).matches' ↔
      lo ≤ addr.length ∧ addr.length ≤ hi ∧
        ∀ c ∈ addr, c.isDigit = true := by
  simp only [digit, mem_repeated_oneOf, mem_digits_iff]

theorem mem_numeral {hi : ℕ} :
    addr ∈ (repeated digit 1 hi).matches' ↔
      ∃ n : Numeral, n.digits = addr ∧ n.digits.length ≤ hi := by
  rw [mem_digits_repeated]
  constructor
  · rintro ⟨hlo, hhi, hall⟩
    exact ⟨⟨addr, List.ne_nil_of_length_pos hlo, hall⟩, rfl, hhi⟩
  · rintro ⟨n, rfl, hhi⟩
    exact ⟨List.length_pos_of_ne_nil n.nonempty, hhi, n.all_isDigit⟩

theorem mem_digit :
    addr ∈ digit.matches' ↔
      ∃ n : Numeral, n.digits = addr ∧ n.digits.length = 1 := by
  rw [digit, mem_oneOf]
  constructor
  · rintro ⟨c, hc, rfl⟩
    exact ⟨⟨[c], List.cons_ne_nil c [],
      List.forall_mem_singleton.mpr (mem_digits_iff.mp hc)⟩, rfl, rfl⟩
  · rintro ⟨n, rfl, hone⟩
    obtain ⟨c, hc⟩ := List.length_eq_one_iff.mp hone
    refine ⟨c, mem_digits_iff.mpr (n.all_isDigit c ?_), hc⟩
    rw [hc]
    exact List.mem_singleton_self c

theorem mem_octet :
    addr ∈ (repeated digit 1 3 * char '.').matches' ↔
      ∃ n : Numeral, n.digits ++ ['.'] = addr ∧ n.digits.length ≤ 3 := by
  rw [mem_mul]
  constructor
  · rintro ⟨text, htext, dot, rfl, rfl⟩
    obtain ⟨n, rfl, hlength⟩ := mem_numeral.mp htext
    exact ⟨n, rfl, hlength⟩
  · rintro ⟨n, rfl, hlength⟩
    exact ⟨n.digits, mem_numeral.mpr ⟨n, rfl, hlength⟩, ['.'], rfl, rfl⟩

theorem mem_octets :
    addr ∈ ((repeated digit 1 3 * char '.') ^ 3).matches' ↔
      ∃ a b c : Numeral,
        a.digits ++ ['.'] ++ (b.digits ++ ['.'] ++ (c.digits ++ ['.'])) =
          addr ∧
        a.digits.length ≤ 3 ∧ b.digits.length ≤ 3 ∧
          c.digits.length ≤ 3 := by
  rw [matches'_pow, pow_three, Language.mem_mul]
  constructor
  · rintro ⟨first, hfirst, rest, hrest, rfl⟩
    obtain ⟨second, hsecond, third, hthird, rfl⟩ :=
      Language.mem_mul.mp hrest
    obtain ⟨a, rfl, ha⟩ := mem_octet.mp hfirst
    obtain ⟨b, rfl, hb⟩ := mem_octet.mp hsecond
    obtain ⟨c, rfl, hc⟩ := mem_octet.mp hthird
    exact ⟨a, b, c, rfl, ha, hb, hc⟩
  · rintro ⟨a, b, c, rfl, ha, hb, hc⟩
    refine ⟨_, mem_octet.mpr ⟨a, rfl, ha⟩, _, ?_, rfl⟩
    exact Language.append_mem_mul (mem_octet.mpr ⟨b, rfl, hb⟩)
      (mem_octet.mpr ⟨c, rfl, hc⟩)

theorem mem_host :
    addr ∈ ((repeated digit 1 3 * char '.') ^ 3 * digit +
      literal "localhost".toList).matches' ↔
        ∃ host : Host, host.text = addr ∧ host.Short := by
  rw [mem_add, mem_mul, mem_literal]
  constructor
  · rintro (⟨octets, hoctets, last, hlast, rfl⟩ | rfl)
    · obtain ⟨a, b, c, rfl, ha, hb, hc⟩ := mem_octets.mp hoctets
      obtain ⟨d, rfl, hd⟩ := mem_digit.mp hlast
      refine ⟨.quad a b c d, ?_, ha, hb, hc, hd⟩
      simp only [Host.text_quad, List.append_assoc, List.cons_append,
        List.nil_append]
    · exact ⟨.localhost, rfl, trivial⟩
  · rintro ⟨host, rfl, hshort⟩
    cases host with
    | localhost => exact Or.inr rfl
    | quad a b c d =>
        obtain ⟨ha, hb, hc, hd⟩ := hshort
        left
        refine ⟨_, mem_octets.mpr ⟨a, b, c, rfl, ha, hb, hc⟩, _,
          mem_digit.mpr ⟨d, rfl, hd⟩, ?_⟩
        simp only [Host.text_quad, List.append_assoc, List.cons_append,
          List.nil_append]

/-- The pattern is that of short addresses. -/
theorem mem_UDP_REGEX :
    addr ∈ UDP_REGEX.matches' ↔
      ∃ h : HostPort, h.text = addr ∧ h.Short := by
  rw [UDP_REGEX, mem_mul]
  constructor
  · rintro ⟨front, hfront, digits, hdigits, rfl⟩
    obtain ⟨text, htext, colon, rfl, rfl⟩ := mem_mul.mp hfront
    obtain ⟨host, rfl, hshort⟩ := mem_host.mp htext
    obtain ⟨port, rfl, hport⟩ := mem_numeral.mp hdigits
    exact ⟨⟨host, port⟩, by simp [HostPort.text], hshort, hport⟩
  · rintro ⟨⟨host, port⟩, rfl, hshort, hport⟩
    refine ⟨host.text ++ [':'], ?_, port.digits, ?_, ?_⟩
    · exact mem_mul.mpr
        ⟨host.text, mem_host.mpr ⟨host, rfl, hshort⟩, [':'], rfl, rfl⟩
    · exact mem_numeral.mpr ⟨port, rfl, hport⟩
    · simp [HostPort.text]

end

/-! ## One reading of an address -/

theorem Numeral.notMem (n : Numeral) {c : Char} (hc : c.isDigit = false) :
    c ∉ n.digits := by
  intro hmem
  rw [n.all_isDigit c hmem] at hc
  cases hc

theorem Numeral.ext {n m : Numeral} (h : n.digits = m.digits) : n = m := by
  cases n
  cases m
  cases h
  rfl

/-- Numerals end at the first character that is no digit. -/
theorem Numeral.append_inj {n m : Numeral} {sep : Char}
    (hsep : sep.isDigit = false) {rest rest' : Text}
    (h : n.digits ++ sep :: rest = m.digits ++ sep :: rest') :
    n = m ∧ rest = rest' := by
  have htake (k : Numeral) (text : Text) :
      (k.digits ++ sep :: text).takeWhile (·.isDigit) = k.digits := by
    rw [List.takeWhile_append_of_pos k.all_isDigit,
      List.takeWhile_cons_of_neg (by simp [hsep]), List.append_nil]
  have hdigits : n.digits = m.digits := by
    rw [← htake n rest, h, htake]
  rw [hdigits] at h
  exact ⟨Numeral.ext hdigits, (List.cons.inj (List.append_cancel_left h)).2⟩

theorem Host.notMem_quad {letter : Char} (hdigit : letter.isDigit = false)
    (hdot : letter ≠ '.') (a b c d : Numeral) :
    letter ∉ (Host.quad a b c d).text := by
  simp only [Host.text_quad, List.mem_append, List.mem_cons, hdot,
    Numeral.notMem _ hdigit, or_self, not_false_eq_true]

theorem Host.colon_notMem (host : Host) : ':' ∉ host.text := by
  cases host with
  | localhost => decide
  | quad a b c d => exact Host.notMem_quad (by decide) (by decide) a b c d

theorem Host.text_injective {host host' : Host}
    (h : host.text = host'.text) : host = host' := by
  have hletter : ∀ a b c d, 'l' ∉ (Host.quad a b c d).text :=
    Host.notMem_quad (by decide) (by decide)
  have hlocal : 'l' ∈ Host.localhost.text := by decide
  have hdot : ('.').isDigit = false := by decide
  cases host with
  | localhost =>
      cases host' with
      | localhost => rfl
      | quad a b c d =>
          rw [h] at hlocal
          exact absurd hlocal (hletter a b c d)
  | quad a b c d =>
      cases host' with
      | localhost =>
          rw [← h] at hlocal
          exact absurd hlocal (hletter a b c d)
      | quad a' b' c' d' =>
          rw [Host.text_quad, Host.text_quad] at h
          obtain ⟨ha, hrest⟩ := Numeral.append_inj hdot h
          obtain ⟨hb, hrest⟩ := Numeral.append_inj hdot hrest
          obtain ⟨hc, hd⟩ := Numeral.append_inj hdot hrest
          rw [ha, hb, hc, Numeral.ext hd]

theorem HostPort.text_injective {h h' : HostPort} (heq : h.text = h'.text) :
    h = h' := by
  obtain ⟨host, port⟩ := h
  obtain ⟨host', port'⟩ := h'
  have hcolon : (':').isDigit = false := by decide
  obtain ⟨htext, -, hdigits⟩ :=
    (List.append_cons_inj_of_notMem host.colon_notMem
      (port.notMem hcolon)).mp heq
  rw [Host.text_injective htext, Numeral.ext hdigits]

/-- The two kinds of addresses are one exactly when each address is of both
kinds or of none. -/
theorem udp_iff_short_iff {addr : Text} :
    (IsUDPAddress addr ↔ UDP_REGEX.rmatch addr) ↔
      ∀ h : HostPort, h.text = addr → (h.InRange ↔ h.Short) := by
  rw [rmatch_iff_matches', mem_UDP_REGEX, IsUDPAddress]
  constructor
  · rintro hiff h rfl
    have hone {P : HostPort → Prop} :
        (∃ other : HostPort, other.text = h.text ∧ P other) ↔ P h :=
      ⟨fun ⟨other, htext, hP⟩ => HostPort.text_injective htext ▸ hP,
        fun hP => ⟨h, rfl, hP⟩⟩
    rwa [hone, hone] at hiff
  · intro hall
    exact exists_congr fun h => and_congr_right (hall h)

/-! ## Baud rates -/

theorem number_cases (cfg : Text) :
    (∃ digits, cfg = '-' :: digits ∧
      number cfg = (decimal digits).map fun n : ℕ => -(n : ℤ)) ∨
    (∃ digits, cfg = '+' :: digits ∧
      number cfg = (decimal digits).map fun n : ℕ => (n : ℤ)) ∨
    (cfg.head? ≠ some '-' ∧ cfg.head? ≠ some '+' ∧
      number cfg = (decimal cfg).map fun n : ℕ => (n : ℤ)) := by
  unfold number
  split
  next digits => exact Or.inl ⟨digits, rfl, rfl⟩
  next digits => exact Or.inr (Or.inl ⟨digits, rfl, rfl⟩)
  next hminus hplus =>
    refine Or.inr (Or.inr ⟨?_, ?_, rfl⟩)
    · intro hhead
      obtain ⟨rest, hcfg⟩ := List.head?_eq_some_iff.mp hhead
      exact hminus rest hcfg
    · intro hhead
      obtain ⟨rest, hcfg⟩ := List.head?_eq_some_iff.mp hhead
      exact hplus rest hcfg

theorem fitsInt_natCast_iff (k : ℕ) : FitsInt (k : ℤ) ↔ k < 2 ^ 63 := by
  unfold FitsInt
  omega

theorem fitsInt_neg_iff (k : ℕ) : FitsInt (-(k : ℤ)) ↔ k ≤ 2 ^ 63 := by
  unfold FitsInt
  omega

theorem Atoi_of_none {cfg : Text} (hnone : number cfg = none) :
    Atoi cfg = .error (.atoi cfg) := by
  rcases number_cases cfg with
    ⟨digits, rfl, hnumber⟩ | ⟨digits, rfl, hnumber⟩ |
      ⟨hminus, hplus, hnumber⟩
  · rw [hnumber, Option.map_eq_none_iff] at hnone
    simp [Atoi, hnone]
  · rw [hnumber, Option.map_eq_none_iff] at hnone
    simp [Atoi, hnone]
  · rw [hnumber, Option.map_eq_none_iff] at hnone
    simp [Atoi, hminus, hplus, hnone]

theorem Atoi_of_some {cfg : Text} {n : ℤ} (hsome : number cfg = some n) :
    Atoi cfg = if FitsInt n then .ok n else .error (.atoi cfg) := by
  rcases number_cases cfg with
    ⟨digits, rfl, hnumber⟩ | ⟨digits, rfl, hnumber⟩ |
      ⟨hminus, hplus, hnumber⟩
  · rw [hnumber, Option.map_eq_some_iff] at hsome
    obtain ⟨k, hk, rfl⟩ := hsome
    simp [Atoi, hk, fitsInt_neg_iff]
  · rw [hnumber, Option.map_eq_some_iff] at hsome
    obtain ⟨k, hk, rfl⟩ := hsome
    simp [Atoi, hk, fitsInt_natCast_iff]
  · rw [hnumber, Option.map_eq_some_iff] at hsome
    obtain ⟨k, hk, rfl⟩ := hsome
    simp [Atoi, hminus, hplus, hk, fitsInt_natCast_iff]

/-- The default is for what is no number, and only a number that fits no `int`
gets it too. -/
theorem baud_iff (cfg : Option Text) :
    baud cfg = (cfg.bind number).getD DEFAULT_BAUD ↔
      ∀ n ∈ cfg.bind number, FitsInt n := by
  cases cfg with
  | none => exact iff_of_true rfl (fun n hn => by cases hn)
  | some cfg =>
      simp only [Option.bind_some, baud]
      cases hnumber : number cfg with
      | none =>
          rw [Atoi_of_none hnumber]
          exact iff_of_true rfl (fun n hn => by cases hn)
      | some n =>
          rw [Atoi_of_some hnumber]
          by_cases hfits : FitsInt n
          · rw [if_pos hfits]
            exact iff_of_true rfl (fun m hm => by cases hm; exact hfits)
          · rw [if_neg hfits]
            refine iff_of_false ?_ (fun hall => hfits (hall n rfl))
            rintro (rfl : DEFAULT_BAUD = n)
            exact hfits (by decide)

/-! ## The link -/

section

variable {UDPAddr : Type} (env : LinkEnv UDPAddr) {addr : Text}

theorem splitColon_fst (addr : Text) :
    (splitColon addr).1 = addr.takeWhile (· ≠ ':') := by
  unfold splitColon
  cases hdrop : addr.dropWhile (· ≠ ':') with
  | nil =>
      have hall := List.takeWhile_append_dropWhile
        (p := (· ≠ ':')) (l := addr)
      rw [hdrop, List.append_nil] at hall
      exact hall.symm
  | cons c rest => rfl

theorem Serve_of_match (hmatch : UDP_REGEX.rmatch addr = true) :
    (∀ Name Baud, Serve env addr ≠ some (.OpenPort Name Baud)) ∧
      ∀ laddr, env.ResolveUDPAddr addr = some laddr →
        Serve env addr = some (.ListenUDP laddr) ∨
          ∃ raddr, Serve env addr = some (.DialUDP laddr raddr) := by
  have hserve : Serve env addr =
      (env.ResolveUDPAddr addr).map fun udpAddr =>
        if env.Remote ≠ [] then
          .DialUDP udpAddr (env.ResolveUDPAddr env.Remote)
        else .ListenUDP udpAddr := if_pos hmatch
  rw [hserve]
  constructor
  · intro Name Baud hport
    obtain ⟨laddr, -, hcall⟩ := Option.map_eq_some_iff.mp hport
    split at hcall
    · cases hcall
    · cases hcall
  · intro laddr hresolve
    rw [hresolve, Option.map_some]
    by_cases hremote : env.Remote ≠ []
    · rw [if_pos hremote]
      exact Or.inr ⟨_, rfl⟩
    · rw [if_neg hremote]
      exact Or.inl rfl

theorem Serve_of_not_match (hmatch : ¬ UDP_REGEX.rmatch addr = true) :
    Serve env addr =
      some (.OpenPort (addr.takeWhile (· ≠ ':'))
        (baud (splitColon addr).2)) := by
  rw [← splitColon_fst]
  exact if_neg hmatch

theorem selects_iff :
    Selects env addr ↔
      (IsUDPAddress addr ↔ UDP_REGEX.rmatch addr = true) ∧
        (¬ IsUDPAddress addr → ∀ n ∈ givenBaud addr, FitsInt n) := by
  by_cases hmatch : UDP_REGEX.rmatch addr = true
  · have hserve := Serve_of_match env hmatch
    rw [iff_true_right hmatch]
    constructor
    · rintro ⟨-, hserial⟩
      have hudp : IsUDPAddress addr := by
        by_contra hnot
        exact hserve.1 _ _ (hserial hnot)
      exact ⟨hudp, fun hnot => absurd hudp hnot⟩
    · rintro ⟨hudp, -⟩
      exact ⟨fun _ => hserve, fun hnot => absurd hudp hnot⟩
  · have hserve := Serve_of_not_match env hmatch
    rw [iff_false_right hmatch]
    constructor
    · rintro ⟨hudp, hserial⟩
      have hnot : ¬ IsUDPAddress addr := fun haddr =>
        (hudp haddr).1 _ _ hserve
      refine ⟨hnot, fun _ => ?_⟩
      rw [hserve] at hserial
      have hcall := Option.some.inj (hserial hnot)
      exact (baud_iff _).mp (LinkCall.OpenPort.inj hcall).2
    · rintro ⟨hnot, hbaud⟩
      refine ⟨fun haddr => absurd haddr hnot, fun _ => ?_⟩
      rw [hserve]
      exact congrArg (fun rate => some (LinkCall.OpenPort _ rate))
        ((baud_iff _).mpr (hbaud hnot))

/-- The link is the right one exactly for an address whose numbers are in
range when they are short and the other way round, and whose baud rate fits an
`int`. -/
theorem serve_selects_iff : Selects env addr ↔ Fits addr := by
  rw [selects_iff, udp_iff_short_iff]
  exact ⟨fun h => ⟨h.1, h.2⟩, fun h => ⟨h.short, h.baud⟩⟩

end

/-- The last number of an address in the net of the drone has two digits, so
that a serial device is opened. -/
theorem udp_address_opened_as_device :
    ¬ ∀ (env : LinkEnv Text) addr, Selects env addr := by
  intro hall
  let env : LinkEnv Text := ⟨[], some⟩
  let numeral (digits : Text) (hne : digits ≠ [])
      (hall : digits.all Char.isDigit = true) : Numeral :=
    ⟨digits, hne, List.all_eq_true.mp hall⟩
  let h : HostPort :=
    ⟨.quad (numeral "192".toList (by decide) (by decide))
        (numeral "168".toList (by decide) (by decide))
        (numeral "1".toList (by decide) (by decide))
        (numeral "10".toList (by decide) (by decide)),
      numeral "14550".toList (by decide) (by decide)⟩
  have hiff := udp_iff_short_iff.mp
    ((selects_iff env).mp (hall env h.text)).1 h rfl
  have hrange : h.InRange := by
    refine ⟨⟨?_, ?_, ?_, ?_⟩, ?_, ?_⟩
    all_goals decide
  obtain ⟨⟨-, -, -, hone⟩, -⟩ := hiff.mp hrange
  exact absurd hone (by decide)

end DronesmithEngine.Fmulink

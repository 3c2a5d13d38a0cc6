import UclBench.CString
import UclBench.Loop
import UclBench.Separated

/-!
# UclBench.ClLib.ClInfo

The device record of `clinfo.cpp` and the line in which the benchmarks print it
(`print_csv_device_info`).

The line before it names the columns, so the two lines are a table that can be
read back.  `printCsvDeviceInfo_read`: what is read are the properties of the
device, provided that no text cuts a column, and that the size of a cache line
is the size of the cache, which is printed in its place.
-/

namespace UclBench.ClLib

/-! ## the record -/

/-- The numbers `clGetDeviceInfo` is asked for. -/
inductive Param where
  | deviceType
  | maxComputeUnits
  | maxWorkItemDimensions
  | maxWorkGroupSize
  | maxClockFrequency
  | addressBits
  | maxMemAllocSize
  | imageSupport
  | maxSamplers
  | maxParameterSize
  | singleFpConfig
  | globalMemCacheType
  | globalMemCachelineSize
  | globalMemCacheSize
  | globalMemSize
  | maxConstantBufferSize
  | maxConstantArgs
  | localMemType
  | localMemSize
  | errorCorrectionSupport
  | profilingTimerResolution
  | endianLittle
  | available
  | compilerAvailable
  | executionCapabilities
  | queueProperties
  deriving DecidableEq, Repr

/-- The texts. -/
inductive TextParam where
  | name
  | vendor
  | version
  | profile
  | extensions
  deriving DecidableEq, Repr

/-- A device, as `clGetDeviceInfo` describes it. -/
structure Device where
  number : Param → Nat
  text : TextParam → Text
  workItemSizes : List Nat
  length_workItemSizes : workItemSizes.length = number .maxWorkItemDimensions

/-- `_DEVICE_INFO` -/
structure DeviceInfo where
  type : Nat
  maxComputeUnits : Nat
  maxWorkItemDimensions : Nat
  maxWorkItemSizes : List Nat
  maxWorkGroupSize : Nat
  maxClockFrequency : Nat
  addressBits : Nat
  maxMemAllocSize : Nat
  imageSupport : Nat
  maxSamplers : Nat
  maxParameterSize : Nat
  singleFpConfig : Nat
  memCacheType : Nat
  globalMemCachelineSize : Nat
  globalMemCacheSize : Nat
  globalMemSize : Nat
  maxConstantBufferSize : Nat
  maxConstantArgs : Nat
  localMemType : Nat
  localMemSize : Nat
  errorCorrection : Nat
  profilingTimerResolution : Nat
  endianLittle : Nat
  available : Nat
  compilerAvailable : Nat
  execCapabilities : Nat
  queueProperties : Nat
  name : Text
  vendor : Text
  driverVersion : Text
  profile : Text
  version : Text
  extensions : Text

/-- `get_driver_version`, which asks for `CL_DEVICE_VERSION` -/
def getDriverVersion (d : Device) : Text := d.text .version

def getGlobalMemCacheSize (d : Device) : Nat := d.number .globalMemCacheSize

/-- `get_device_info` -/
def getDeviceInfo (d : Device) : DeviceInfo where
  type := d.number .deviceType
  maxComputeUnits := d.number .maxComputeUnits
  maxWorkItemDimensions := d.number .maxWorkItemDimensions
  maxWorkItemSizes := d.workItemSizes
  maxWorkGroupSize := d.number .maxWorkGroupSize
  maxClockFrequency := d.number .maxClockFrequency
  addressBits := d.number .addressBits
  maxMemAllocSize := d.number .maxMemAllocSize
  imageSupport := d.number .imageSupport
  maxSamplers := d.number .maxSamplers
  maxParameterSize := d.number .maxParameterSize
  singleFpConfig := d.number .singleFpConfig
  memCacheType := d.number .globalMemCacheType
  -- the getter of the line below it
  globalMemCachelineSize := getGlobalMemCacheSize d
  globalMemCacheSize := getGlobalMemCacheSize d
  globalMemSize := d.number .globalMemSize
  maxConstantBufferSize := d.number .maxConstantBufferSize
  maxConstantArgs := d.number .maxConstantArgs
  localMemType := d.number .localMemType
  localMemSize := d.number .localMemSize
  errorCorrection := d.number .errorCorrectionSupport
  profilingTimerResolution := d.number .profilingTimerResolution
  endianLittle := d.number .endianLittle
  available := d.number .available
  compilerAvailable := d.number .compilerAvailable
  execCapabilities := d.number .executionCapabilities
  queueProperties := d.number .queueProperties
  name := d.text .name
  vendor := d.text .vendor
  driverVersion := getDriverVersion d
  profile := d.text .profile
  version := d.text .version
  extensions := d.text .extensions

/-! ## the line -/

/-- `get_device_type_string` -/
def getDeviceTypeString (type : Nat) : Text :=
  if type = 2 then "cpu".toList
  else if type = 4 then "gpu".toList
  else if type = 8 then "accelerator".toList
  else "default".toList

/-- The line that names the columns. -/
def devspec : Text :=
  "#devspec: name:string, vendor:string, type:string, profile:string, version:string, ".toList ++
    "max_compute_units:unsigned, max_work_group_size:unsigned, ".toList ++
    "max_work_item_dimensions:unsigned, max_work_item_size:unsigned, ".toList ++
    "max_clock_frequency:unsigned, global_mem_size:unsigned, ".toList ++
    "global_mem_cache_size:unsigned, global_mem_cacheline_size:unsigned, ".toList ++
    "local_mem_size:unsigned, local_mem_type:unsigned, ".toList ++
    "max_constant_buffer_size:unsigned, max_constant_args:unsigned\n".toList

/-- What stands between the conversions of the format. -/
def separator : Text := ",|, ".toList

/-- The arguments of the second `printf`, converted; `maxWorkItemSize` is
`info->max_work_item_sizes[0]`. -/
def csvColumns (info : DeviceInfo) (maxWorkItemSize : Nat) : List Text :=
  [info.name, info.vendor, getDeviceTypeString info.type, info.profile, info.version,
    decimal info.maxComputeUnits, decimal info.maxWorkGroupSize, decimal info.maxWorkItemDimensions,
    decimal maxWorkItemSize, decimal info.maxClockFrequency, decimal info.globalMemSize,
    decimal info.globalMemCacheSize, decimal info.globalMemCachelineSize, decimal info.localMemSize,
    decimal info.localMemType, decimal info.maxConstantBufferSize, decimal info.maxConstantArgs]

/-- `print_csv_device_info` -/
def printCsvDeviceInfo (d : Device) : Except Fault Text :=
  let info := getDeviceInfo d
  match info.maxWorkItemSizes with
  | [] => .error .outOfBounds
  | size :: _ => .ok (devspec ++
      ("#dev: ".toList ++ separator.intercalate (csvColumns info size) ++ ['\n']))

/-! ## reading it -/

/-- The first line of a text, and what follows it. -/
def nextLine (t : Text) : Text × Text :=
  (t.takeWhile (· ≠ '\n'), (t.dropWhile (· ≠ '\n')).drop 1)

/-- What follows a prefix. -/
def afterPrefix (pre t : Text) : Option Text := if pre <+: t then some (t.drop pre.length) else none

/-- The columns of the table, with their names. -/
def readDevice (out : Text) : Option (List (Text × Text)) := do
  let spec ← afterPrefix "#devspec: ".toList (nextLine out).1
  let dev ← afterPrefix "#dev: ".toList (nextLine (nextLine out).2).1
  let names := (fields ", ".toList spec).map fun f => f.takeWhile (· ≠ ':')
  let values := fields separator dev
  if names.length = values.length then some (names.zip values) else none

/-- What the columns are to hold. -/
def properties (d : Device) (maxWorkItemSize : Nat) : List (Text × Text) :=
  [("name".toList, d.text .name),
    ("vendor".toList, d.text .vendor),
    ("type".toList, getDeviceTypeString (d.number .deviceType)),
    ("profile".toList, d.text .profile),
    ("version".toList, d.text .version),
    ("max_compute_units".toList, decimal (d.number .maxComputeUnits)),
    ("max_work_group_size".toList, decimal (d.number .maxWorkGroupSize)),
    ("max_work_item_dimensions".toList, decimal (d.number .maxWorkItemDimensions)),
    ("max_work_item_size".toList, decimal maxWorkItemSize),
    ("max_clock_frequency".toList, decimal (d.number .maxClockFrequency)),
    ("global_mem_size".toList, decimal (d.number .globalMemSize)),
    ("global_mem_cache_size".toList, decimal (d.number .globalMemCacheSize)),
    ("global_mem_cacheline_size".toList, decimal (d.number .globalMemCachelineSize)),
    ("local_mem_size".toList, decimal (d.number .localMemSize)),
    ("local_mem_type".toList, decimal (d.number .localMemType)),
    ("max_constant_buffer_size".toList, decimal (d.number .maxConstantBufferSize)),
    ("max_constant_args".toList, decimal (d.number .maxConstantArgs))]

/-- A text that stays in its column. -/
def Clean (t : Text) : Prop := '\n' ∉ t ∧ ¬ separator <:+: t

/-! ## the two lines -/

theorem nextLine_append {t : Text} (ht : '\n' ∉ t) (rest : Text) :
    nextLine (t ++ '\n' :: rest) = (t, rest) := by
  have hall : ∀ c ∈ t, decide (c ≠ '\n') = true := fun c hc =>
    decide_eq_true fun heq => ht (heq ▸ hc)
  rw [nextLine, List.takeWhile_append_of_pos hall, List.dropWhile_append_of_pos hall]
  simp

theorem afterPrefix_append (pre t : Text) : afterPrefix pre (pre ++ t) = some t := by
  rw [afterPrefix, if_pos (List.prefix_append pre t), List.drop_left]

/-- The names of the columns. -/
def columnNames : List Text :=
  ["name".toList, "vendor".toList, "type".toList, "profile".toList, "version".toList,
    "max_compute_units".toList, "max_work_group_size".toList, "max_work_item_dimensions".toList,
    "max_work_item_size".toList, "max_clock_frequency".toList, "global_mem_size".toList,
    "global_mem_cache_size".toList, "global_mem_cacheline_size".toList, "local_mem_size".toList,
    "local_mem_type".toList, "max_constant_buffer_size".toList, "max_constant_args".toList]

theorem names_devspec : ∃ spec, devspec = "#devspec: ".toList ++ spec ++ ['\n'] ∧
    '\n' ∉ "#devspec: ".toList ++ spec ∧
    (fields ", ".toList spec).map (fun f => f.takeWhile (· ≠ ':')) = columnNames := by
  refine ⟨(devspec.drop 10).dropLast, ?_⟩
  unfold devspec columnNames
  repeat rw [String.toList_ofList]
  decide +kernel

/-! ## columns -/

theorem clean_decimal (n : Nat) : Clean (decimal n) := by
  have hdigit {c : Char} (hc : c ∈ decimal n) : c.isDigit :=
    Nat.isDigit_of_mem_toDigits (by decide) (by decide) hc
  refine ⟨fun h => absurd (hdigit h) (by decide), fun h => ?_⟩
  have hcomma : ',' ∈ separator := by decide
  exact absurd (hdigit (h.subset hcomma)) (by decide)

theorem clean_getDeviceTypeString (type : Nat) : Clean (getDeviceTypeString type) := by
  unfold getDeviceTypeString Clean separator
  split
  · decide
  · split
    · decide
    · split <;> decide

theorem decimal_inj {m n : Nat} : decimal m = decimal n ↔ m = n := by
  refine ⟨fun h => ?_, congrArg decimal⟩
  have hnumeral := congrArg (Nat.ofDigitChars 10 · 0) h
  simpa only [decimal, Nat.ofDigitChars_ten_toDigits] using hnumeral

section
variable {d : Device} {size : Nat}

/-- All columns stay apart if these four do. -/
theorem clean_csvColumns
    (h : ∀ t ∈ [d.text .name, d.text .vendor, d.text .profile, d.text .version], Clean t) :
    ∀ t ∈ csvColumns (getDeviceInfo d) size, Clean t := by
  simp only [List.forall_mem_cons, csvColumns, getDeviceInfo, clean_decimal, clean_getDeviceTypeString,
    true_and] at h ⊢
  exact h

theorem csvColumns_eq_iff : csvColumns (getDeviceInfo d) size = (properties d size).map Prod.snd ↔
    d.number .globalMemCacheSize = d.number .globalMemCachelineSize := by
  simp [csvColumns, properties, getDeviceInfo, getGlobalMemCacheSize, decimal_inj]

/-- The values are the parts of the second line. -/
theorem readDevice_lines (row : Text) :
    let values := fields separator (row.takeWhile (· ≠ '\n'))
    readDevice (devspec ++ ("#dev: ".toList ++ row ++ ['\n'])) =
      if columnNames.length = values.length then some (columnNames.zip values) else none := by
  obtain ⟨spec, hspec, hline, hnames⟩ := names_devspec
  have hfirst : nextLine (devspec ++ ("#dev: ".toList ++ row ++ ['\n'])) =
      ("#devspec: ".toList ++ spec, "#dev: ".toList ++ row ++ ['\n']) := by
    rw [hspec, List.append_assoc _ ['\n'], List.singleton_append, nextLine_append hline]
  have hnew : '\n' ∉ "#dev: ".toList := by decide
  have hdev : ∀ c ∈ "#dev: ".toList, decide (c ≠ '\n') = true := fun c hc =>
    decide_eq_true fun heq => hnew (heq ▸ hc)
  have hrow : (row ++ ['\n']).takeWhile (· ≠ '\n') = row.takeWhile (· ≠ '\n') := by
    rw [List.takeWhile_append]
    split
    · next hlen =>
        rw [(List.takeWhile_prefix _).eq_of_length hlen]
        simp
    · rfl
  have hsecond : (nextLine ("#dev: ".toList ++ row ++ ['\n'])).1 =
      "#dev: ".toList ++ row.takeWhile (· ≠ '\n') := by
    rw [nextLine, List.append_assoc, List.takeWhile_append_of_pos hdev, hrow]
  simp only [readDevice, hfirst, hsecond, afterPrefix_append, hnames, Option.bind_eq_bind,
    Option.bind_some]

/-- Columns that stay apart are the values. -/
theorem fields_columns {cols : List Text} (hne : cols ≠ []) (h : ∀ t ∈ cols, Clean t) :
    fields separator ((separator.intercalate cols).takeWhile (· ≠ '\n')) = cols := by
  have hline : ∀ c ∈ separator.intercalate cols, c ≠ '\n' := by
    rintro c hc rfl
    rcases mem_or_of_mem_intercalate hc with hsep | ⟨t, ht, hmem⟩
    · exact absurd hsep (by decide)
    · exact (h t ht).1 hmem
  have hall : (separator.intercalate cols).takeWhile (· ≠ '\n') = separator.intercalate cols :=
    List.takeWhile_eq_self_iff.mpr fun c hc => decide_eq_true (hline c hc)
  rw [hall, fields_intercalate (by decide) (by decide) hne fun t ht => (h t ht).2]

theorem fields_csvColumns
    (h : ∀ t ∈ [d.text .name, d.text .vendor, d.text .profile, d.text .version], Clean t) :
    fields separator ((separator.intercalate (csvColumns (getDeviceInfo d) size)).takeWhile (· ≠ '\n')) =
      csvColumns (getDeviceInfo d) size :=
  fields_columns (List.cons_ne_nil _ _) (clean_csvColumns h)

/-- What is read of a line stays apart. -/
theorem clean_of_mem_fields {row t : Text} (h : t ∈ fields separator (row.takeWhile (· ≠ '\n'))) :
    Clean t := by
  refine ⟨fun hc => ?_, free_of_mem_fields (by decide) h⟩
  have hmem := List.mem_takeWhile_imp (mem_of_mem_fields h hc)
  exact absurd hmem (by decide)

end

/-- **The table**: what is read back are the properties of the device exactly if no text cuts a
column and a line of the cache is as large as the cache.  A device without dimensions has no first
size to print. -/
theorem printCsvDeviceInfo_read (d : Device) :
    (d.workItemSizes = [] → printCsvDeviceInfo d = .error .outOfBounds) ∧
      ∀ size sizes, d.workItemSizes = size :: sizes → ∃ out, printCsvDeviceInfo d = .ok out ∧
        (readDevice out = some (properties d size) ↔
          (∀ t ∈ [d.text .name, d.text .vendor, d.text .profile, d.text .version], Clean t) ∧
            d.number .globalMemCacheSize = d.number .globalMemCachelineSize) := by
  constructor
  · intro h
    simp only [printCsvDeviceInfo, getDeviceInfo, h]
  · intro size sizes h
    have hprint : printCsvDeviceInfo d = .ok (devspec ++ ("#dev: ".toList ++
        separator.intercalate (csvColumns (getDeviceInfo d) size) ++ ['\n'])) := by
      simp only [printCsvDeviceInfo]
      rw [show (getDeviceInfo d).maxWorkItemSizes = size :: sizes from h]
    refine ⟨_, hprint, ?_⟩
    rw [readDevice_lines]
    constructor
    · intro hread
      split at hread
      · next hlen =>
          -- the values read are those of the device, and they stay apart
          have hvalues := congrArg (List.map Prod.snd) (Option.some.inj hread)
          rw [List.map_snd_zip hlen.ge] at hvalues
          have hclean : ∀ t ∈ [d.text .name, d.text .vendor, d.text .profile, d.text .version], Clean t := by
            have hread : ∀ t ∈ (properties d size).map Prod.snd, Clean t := fun t ht =>
              clean_of_mem_fields (hvalues ▸ ht)
            simp only [properties, List.map_cons, List.forall_mem_cons] at hread ⊢
            exact ⟨hread.1, hread.2.1, hread.2.2.2.1, hread.2.2.2.2.1, nofun⟩
          rw [fields_csvColumns hclean] at hvalues
          exact ⟨hclean, csvColumns_eq_iff.mp hvalues⟩
      · contradiction
    · rintro ⟨hclean, hsize⟩
      rw [fields_csvColumns hclean, csvColumns_eq_iff.mpr hsize]
      exact if_pos rfl

/-- A processor whose cache reports the size of a line. -/
def exampleDevice : Device where
  number
    | .deviceType => 2
    | .maxWorkItemDimensions => 3
    | .globalMemCachelineSize => 64
    | .globalMemCacheSize => 32768
    | _ => 1
  text
    | .name => "CPU, 4 cores".toList
    | _ => "OpenCL 1.0".toList
  workItemSizes := [1024, 1024, 64]
  length_workItemSizes := rfl

/-- Its table says otherwise. -/
theorem printCsvDeviceInfo_read_cacheline :
    exampleDevice.workItemSizes = 1024 :: [1024, 64] ∧
      ∃ out, printCsvDeviceInfo exampleDevice = .ok out ∧
        readDevice out ≠ some (properties exampleDevice 1024) := by
  obtain ⟨out, hprint, hread⟩ := (printCsvDeviceInfo_read exampleDevice).2 1024 [1024, 64] rfl
  exact ⟨rfl, out, hprint, fun h => absurd (hread.mp h).2 (by decide)⟩

end UclBench.ClLib

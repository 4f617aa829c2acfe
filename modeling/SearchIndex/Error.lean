import SearchIndex.Json.Printer

/-!
# Errors

Everything that can go wrong, as causes rather than texts. `Error.message` gives
each cause its wording; it is the only place where the wording is fixed. Faults
that a target, a transport or another party reports in its own words are kept as
those words (`stated`), and so is what the system and the readers of documents
report.
-/

namespace SearchIndex

/-- How the documents of a target take part in the index. -/
inductive Mode where
  /-- They live in another store, from which the index can be built again. -/
  | index
  /-- The index is where they live. -/
  | storage
deriving DecidableEq, Inhabited

/-- The word for a mode. -/
def Mode.word : Mode → String
  | .index => "index"
  | .storage => "storage"

/-- Numbers in messages are written without an exponent, and whole ones without a
point; of two equally near decimals the upper one is written. -/
def messageLayout : Decimal.Layout where
  positional := none
  pointZero := false
  tie := .up

/-- The text of a quantity in a message. -/
def Quantity.text : Quantity → String
  | .finite x => messageLayout.render x
  | .infinite negative => if negative then "-inf" else "inf"
  | .notANumber => "NaN"

/-- Why a definition, a schema or a directory of schemas is refused. -/
inductive ConfigurationFault where
  | noTargets
  | notIndexable (target : String)
  | mixedModes (first : String) (mode : Mode) (target : String) (other : Mode)
  | withoutTargets
  | fieldName (name : String)
  | missingDirectory (path : String)
  | stated (text : String)

/-- The wording of a refused configuration. -/
def ConfigurationFault.message : ConfigurationFault → String
  | .noTargets => "targets must not be empty"
  | .notIndexable target => "target " ++ target ++ " is not indexable"
  | .mixedModes first mode target other =>
    "targets must share one elastic mode: " ++ first ++ " is " ++ mode.word ++ " but " ++
      target ++ " is " ++ other.word
  | .withoutTargets => "definition has no targets"
  | .fieldName name => "invalid field name '" ++ name ++ "'"
  | .missingDirectory path => "Schemas directory does not exist: " ++ path
  | .stated text => text

/-- Why a parameter of a request is refused. -/
inductive ValidationFault where
  | reservedName (name : String)
  | interval (text : String)
  | histogramInterval (value : Quantity)
  | termsSize
  | rangeWithoutBound (field : String)
  | rangeReversed (field : String) (lower upper : Quantity)
  | offsetAsZone (name : String)
  | unknownZone (name : String)
  | stated (text : String)

/-- The wording of a refused parameter. -/
def ValidationFault.message : ValidationFault → String
  | .reservedName name => "'" ++ name ++ "' cannot be used as an aggregation name"
  | .interval text => "invalid interval '" ++ text ++ "'"
  | .histogramInterval value => "histogram interval must be positive, got " ++ value.text
  | .termsSize => "terms size must be at least 1"
  | .rangeWithoutBound field => "range on '" ++ field ++ "' needs at least one bound"
  | .rangeReversed field lower upper =>
    "range on '" ++ field ++ "' has from " ++ lower.text ++ " above to " ++ upper.text
  | .offsetAsZone name => "'" ++ name ++ "' is an offset, not a time zone"
  | .unknownZone name => "unknown time zone '" ++ name ++ "'"
  | .stated text => text

/-- Why the mapping of a field cannot be resolved. -/
inductive MappingFault where
  | withoutTarget
  | inferenceDisabled
  | notIndexable (target : String)
  | notSupported
  | notAnObject (target : String) (options : Json)
  | noOptions (target : String)
  | stated (text : String)

/-- The wording of an unresolved mapping. -/
def MappingFault.message : MappingFault → String
  | .withoutTarget => "no indexable target to infer options from"
  | .inferenceDisabled => "no explicit type and mapping inference is disabled"
  | .notIndexable target => "target " ++ target ++ " is not indexable"
  | .notSupported => "target does not support mapping inference"
  | .notAnObject target options =>
    "target " ++ target ++ " declares non-object options: " ++ options.compact
  | .noOptions target => "target " ++ target ++ " has no options for this field"
  | .stated text => text

/-- Why a response cannot be decoded. A `type` is the word of the aggregation whose
part of the response is at fault. -/
inductive DecodeFault where
  | withoutBuckets (type : String)
  | bucketNotAnObject (type : String)
  | notAnObject (type : String)
  | withoutValue (type : String)
  | withoutHits
  | hitNotAnObject
  | hitWithoutId
  | aggregationsNotAnObject
  | stated (text : String)

/-- The wording of a response that cannot be decoded. -/
def DecodeFault.message : DecodeFault → String
  | .withoutBuckets type => type ++ " result has no buckets array"
  | .bucketNotAnObject type => type ++ " bucket is not an object"
  | .notAnObject type => type ++ " result is not an object"
  | .withoutValue type => type ++ " result has no value"
  | .withoutHits => "search response has no hits object"
  | .hitNotAnObject => "search hit is not an object"
  | .hitWithoutId => "search hit has no _id"
  | .aggregationsNotAnObject => "search response aggregations is not an object"
  | .stated text => text

/-- What can go wrong. -/
inductive Error where
  | configuration (fault : ConfigurationFault)
  | validation (fault : ValidationFault)
  | mapping (field : String) (fault : MappingFault)
  | decode (fault : DecodeFault)
  | transport (text : String)
  /-- A file or directory cannot be read, as the system reports. -/
  | io (report : String)
  /-- A schema is not well-formed YAML of the expected shape, as its reader reports. -/
  | yaml (report : String)
  /-- A configuration file is not well-formed TOML of the expected shape, as its reader
  reports. -/
  | toml (report : String)
  /-- Options are not a JSON value of the expected shape, as their reader reports. -/
  | json (report : String)

/-- The text of an error. -/
def Error.message : Error → String
  | .configuration fault => "Configuration error: " ++ fault.message
  | .validation fault => "Validation error: " ++ fault.message
  | .mapping field fault =>
    "Cannot resolve mapping for field '" ++ field ++ "': " ++ fault.message
  | .decode fault => "Decode error: " ++ fault.message
  | .transport text => "Transport error: " ++ text
  | .io report => "IO error: " ++ report
  | .yaml report => "YAML error: " ++ report
  | .toml report => "TOML error: " ++ report
  | .json report => "JSON error: " ++ report

end SearchIndex

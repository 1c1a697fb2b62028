import RealmCpp.Library.Formula
import RealmCpp.Library.Handles
import RealmCpp.Library.Journal
import RealmCpp.Library.ObjectGraph
import RealmCpp.Core.Data
import RealmCpp.Core.Query
import RealmCpp.Bridge.Query
import RealmCpp.Rbool.Context
import RealmCpp.Rbool.Steps
import RealmCpp.Rbool.Leaves
import RealmCpp.Rbool.Operands
import RealmCpp.Rbool.Trees
import RealmCpp.Rbool.ValueMode
import RealmCpp.Rbool.Paths
import RealmCpp.Rbool.DictionaryLink
import RealmCpp.Db.Write
import RealmCpp.Core.Store
import RealmCpp.Managed.Link
import RealmCpp.Accessors.Object
import RealmCpp.Accessors.Placement
import RealmCpp.Accessors.Nodes
import RealmCpp.Accessors.Rows
import RealmCpp.Accessors.Columns
import RealmCpp.Accessors.Holding
import RealmCpp.Accessors.Overwrite
import RealmCpp.Accessors.Exact
import RealmCpp.Accessors.Idempotent
import RealmCpp.Accessors.Detach
import RealmCpp.Accessors.RoundTrip
import RealmCpp.Accessors.Pointers
import RealmCpp.Accessors.Termination
import RealmCpp.Library.Diff
import RealmCpp.Core.ChangeSet
import RealmCpp.Core.Results
import RealmCpp.Managed.Results
import RealmCpp.Managed.List
import RealmCpp.Observation.ObjectChange
import RealmCpp.Observation.CollectionChange
import RealmCpp.Observation.ResultsChange
import RealmCpp.Library.Copies
import RealmCpp.Bridge.Document
import RealmCpp.Bridge.Config
import RealmCpp.Library.EventLoop
import RealmCpp.Networking.Uri
import RealmCpp.Networking.Transport
import RealmCpp.Networking.Endpoint
import RealmCpp.Library.Fifo
import RealmCpp.Scheduler.InvocationQueue
import RealmCpp.Library.Client
import RealmCpp.Library.Binary64
import RealmCpp.Library.Substring
import RealmCpp.Core.Evaluation
import RealmCpp.Managed.Scalar
import RealmCpp.Managed.ScalarAgreement
import RealmCpp.Managed.LinkComparison
import RealmCpp.Managed.DictionaryComparison
import RealmCpp.Sync.Subscriptions
import RealmCpp.Sync.Update
import RealmCpp.Observation.PropertyValue
import RealmCpp.Accessors.LinkVector
import RealmCpp.Bridge.Mixed
import RealmCpp.Library.StdSet
import RealmCpp.Library.Traversal
import RealmCpp.Managed.StorableValues
import RealmCpp.Managed.Iterators
import RealmCpp.Bridge.DocumentIterator
import RealmCpp.Bridge.DocumentValue
import RealmCpp.Core.Set
import RealmCpp.Managed.Set
import RealmCpp.Library.Getline
import RealmCpp.Networking.Ipv4
import RealmCpp.Networking.RequestPort
import RealmCpp.Networking.TlsStream
import RealmCpp.Networking.EndpointConfiguration
import RealmCpp.Library.Decimal128
import RealmCpp.Managed.DecimalComparison
import RealmCpp.Library.SignedInteger
import RealmCpp.Managed.IntegerArithmetic
import RealmCpp.Library.Sequence
import RealmCpp.Managed.ScalarList
import RealmCpp.Managed.ScalarMap
import RealmCpp.Library.StdString
import RealmCpp.Managed.ManagedString
import RealmCpp.Managed.ObjectCopies
import RealmCpp.Library.TruncatedSplit
import RealmCpp.Managed.Timestamp
import RealmCpp.Managed.TimestampProperty
import RealmCpp.Library.OneShot
import RealmCpp.Networking.Shims
import RealmCpp.Schemagen.PropertyTypes
import RealmCpp.Schemagen.CoreSchema
import RealmCpp.Schemagen.MemberPointers
import RealmCpp.Managed.MixedProperty
import RealmCpp.Library.Ownership
import RealmCpp.Library.Buffers
import RealmCpp.Library.KeyedTree
import RealmCpp.Managed.DecimalArithmetic
import RealmCpp.Bson.Values
import RealmCpp.Bridge.Binary
import RealmCpp.Observation.NotificationToken
import RealmCpp.Managed.BinaryProperty
import RealmCpp.Scheduler.Shims
import RealmCpp.Scheduler.ShimmedInvocation
import RealmCpp.Observation.IndexIterator
import RealmCpp.Library.GraphRegion
import RealmCpp.Accessors.PointedObjects
import RealmCpp.Accessors.ManagedVector
import RealmCpp.Accessors.ManagedMap
import RealmCpp.Accessors.ManagedPointer
import RealmCpp.Managed.FoundElements
